/-
  File:      IronCrab/Track/ArbTrackSplit.lean
  Subject:   SPLITTING A TRACK UPDATE (`arb_track_requests.rs`): an update whose JSON is longer than
             one message may be is published as several updates.

  Reading of the source's data:

  * `arb_track_payload_bytes` is a parameter that grows with every added entry (`PayloadBytes`);
    `PayloadBytes.serdeJson` is the one of the serializer;
  * the loop of `chunk_entries` is a recursion on `entries[idx..]`.

  * `chunkEntries_eq` -- the entries of the chunks are a greedy packing;
  * `apply_chunks` -- the chunks, one after another, do what the update does;
  * **`split_loses_nothing`** -- both, of every update that is no reconcile.
-/
import IronCrab.Lib.Packing
import IronCrab.Track.CoalesceMerge

namespace IronCrab.Track

/-! ## 1. The payload -/

/-- `ARB_TRACK_PUBLISH_MAX_PAYLOAD_BYTES`. -/
def arbTrackPublishMaxPayloadBytes : Nat := 900000

/-- The update with one more entry to remove. -/
def ArbTrackRequestsUpdate.pushRemoved (u : ArbTrackRequestsUpdate) (r : ArbTrackRemovedEntry) :
    ArbTrackRequestsUpdate :=
  { u with removed := u.removed ++ [r] }

/-- The update with one more active entry. -/
def ArbTrackRequestsUpdate.pushActive (u : ArbTrackRequestsUpdate) (a : ArbTrackActiveEntry) :
    ArbTrackRequestsUpdate :=
  { u with active := u.active ++ [a] }

/-- `arb_track_payload_bytes`. -/
structure PayloadBytes where
  bytes : ArbTrackRequestsUpdate → Nat
  bytes_pushRemoved : ∀ u r, bytes u ≤ bytes (u.pushRemoved r)
  bytes_pushActive : ∀ u a, bytes u ≤ bytes (u.pushActive a)

namespace PayloadBytes

/-! ### The serializer -/

/-- A character inside quotes. -/
def jsonChar (ch : Char) : String :=
  match ch.toNat with
  | 0x22 => "\\\""
  | 0x5C => "\\\\"
  | 0x08 => "\\b"
  | 0x09 => "\\t"
  | 0x0A => "\\n"
  | 0x0C => "\\f"
  | 0x0D => "\\r"
  | n =>
      if n < 0x20 then "\\u00" ++ .ofList [Nat.digitChar (n / 16), Nat.digitChar (n % 16)]
      else .singleton ch

def jsonText (text : String) : String := "\"" ++ .join (text.toList.map jsonChar) ++ "\""

def jsonArray (items : List String) : String := "[" ++ ",".intercalate items ++ "]"

def activeReasonName : ArbTrackActiveReason → String
  | .baseline => "baseline"
  | .multiDex => "multi_dex"
  | .tradeSignal => "trade_signal"

def readinessName : ArbTrackReadiness → String
  | .rejected => "rejected"
  | .warmable => "warmable"
  | .quoteReady => "quote_ready"
  | .executable => "executable"

def removedReasonName : ArbTrackRemovedReason → String
  | .cooldown => "cooldown"
  | .stale => "stale"
  | .budget => "budget"

def activeJson (a : ArbTrackActiveEntry) : String :=
  "\x7b\"pool\":" ++ jsonText a.pool ++ ",\"reason\":" ++ jsonText (activeReasonName a.reason) ++
    ",\"readiness\":" ++ jsonText (readinessName a.readiness) ++ "\x7d"

def removedJson (r : ArbTrackRemovedEntry) : String :=
  "\x7b\"pool\":" ++ jsonText r.pool ++ ",\"reason\":" ++ jsonText (removedReasonName r.reason) ++
    "\x7d"

/-- An update as `serde_json::to_vec` writes it. -/
def updateJson (u : ArbTrackRequestsUpdate) : String :=
  "\x7b\"version\":" ++ u.version.toNat.repr ++ ",\"ts_unix_ms\":" ++ u.tsUnixMs.toNat.repr ++
    ",\"active\":" ++ jsonArray (u.active.map activeJson) ++
    ",\"removed\":" ++ jsonArray (u.removed.map removedJson) ++
    ",\"reconcile\":" ++ (if u.reconcile then "true" else "false") ++ "\x7d"

theorem size_jsonArray (items : List String) (item : String) :
    (jsonArray items).utf8ByteSize ≤ (jsonArray (items ++ [item])).utf8ByteSize := by
  have hitems : (",".intercalate items).utf8ByteSize ≤
      (",".intercalate (items ++ [item])).utf8ByteSize := by
    cases items with
    | nil =>
        rw [String.intercalate_nil]
        exact Nat.zero_le _
    | cons x items =>
        rw [String.intercalate_append_of_ne_nil (List.cons_ne_nil x items)
          (List.cons_ne_nil item []), String.utf8ByteSize_append, String.utf8ByteSize_append]
        omega
  unfold jsonArray
  simp only [String.utf8ByteSize_append]
  omega

theorem size_join_replicate (n : Nat) :
    (String.join (List.replicate n "P")).utf8ByteSize = n := by
  induction n with
  | zero => rfl
  | succ n ih =>
      rw [List.replicate_succ, String.join_cons, String.utf8ByteSize_append, ih]
      exact Nat.add_comm 1 n

theorem size_jsonText_replicate (n : Nat) :
    (jsonText (.ofList (List.replicate n 'P'))).utf8ByteSize = n + 2 := by
  have hchar : jsonChar 'P' = "P" := rfl
  have hquote : "\"".utf8ByteSize = 1 := rfl
  unfold jsonText
  rw [String.toList_ofList, List.map_replicate, hchar, String.utf8ByteSize_append,
    String.utf8ByteSize_append, size_join_replicate, hquote]
  omega

theorem size_activeJson (a : ArbTrackActiveEntry) :
    (jsonText a.pool).utf8ByteSize ≤ (activeJson a).utf8ByteSize := by
  unfold activeJson
  simp only [String.utf8ByteSize_append]
  omega

theorem size_removedJson (r : ArbTrackRemovedEntry) :
    (jsonText r.pool).utf8ByteSize ≤ (removedJson r).utf8ByteSize := by
  unfold removedJson
  simp only [String.utf8ByteSize_append]
  omega

theorem le_size_updateJson {u : ArbTrackRequestsUpdate} {a : ArbTrackActiveEntry}
    {r : ArbTrackRemovedEntry} (ha : u.active = [a]) (hr : u.removed = [r]) :
    (activeJson a).utf8ByteSize + (removedJson r).utf8ByteSize ≤ (updateJson u).utf8ByteSize := by
  unfold updateJson jsonArray
  simp only [ha, hr, List.map_cons, List.map_nil, String.intercalate_singleton,
    String.utf8ByteSize_append]
  omega

/-- The bytes that the serializer writes. -/
def serdeJson : PayloadBytes where
  bytes u := (updateJson u).utf8ByteSize
  bytes_pushRemoved u r := by
    have h := size_jsonArray (u.removed.map removedJson) (removedJson r)
    unfold updateJson ArbTrackRequestsUpdate.pushRemoved
    simp only [String.utf8ByteSize_append, List.map_append, List.map_cons, List.map_nil]
    omega
  bytes_pushActive u a := by
    have h := size_jsonArray (u.active.map activeJson) (activeJson a)
    unfold updateJson ArbTrackRequestsUpdate.pushActive
    simp only [String.utf8ByteSize_append, List.map_append, List.map_cons, List.map_nil]
    omega

end PayloadBytes

/-! ## 2. The split -/

section Split

variable (size : PayloadBytes)

/-- An update that may be published as it is. -/
def fitsPayload (u : ArbTrackRequestsUpdate) : Bool :=
  size.bytes u ≤ arbTrackPublishMaxPayloadBytes

variable {T : Type}

/-- The search of `chunk_entries` for the entries of the next chunk. -/
def bestTake (build : List T → ArbTrackRequestsUpdate) (entries : List T) : Nat :=
  Bisect.greatest (fun mid => fitsPayload size (build (entries.take mid))) 1 entries.length 1

theorem bestTake_pos (build : List T → ArbTrackRequestsUpdate) (entries : List T) :
    1 ≤ bestTake size build entries := by
  exact Bisect.le_greatest _ _ _ _ le_rfl

/-- `chunk_entries`. -/
def chunkEntries (build : List T → ArbTrackRequestsUpdate) :
    List T → List ArbTrackRequestsUpdate
  | [] => []
  | e :: entries =>
      let best := bestTake size build (e :: entries)
      let chunk := build ((e :: entries).take best)
      if fitsPayload size chunk then
        chunk :: chunkEntries build ((e :: entries).drop best)
      else chunk :: chunkEntries build entries
  termination_by entries => entries.length
  decreasing_by
    · have := bestTake_pos size build (e :: entries)
      rw [List.length_drop, List.length_cons]
      omega
    · exact Nat.lt_succ_self _

/-- **The entries of the chunks are a greedy packing.** -/
theorem chunkEntries_eq (build : List T → ArbTrackRequestsUpdate)
    (hbuild : ∀ p x, size.bytes (build p) ≤ size.bytes (build (p ++ [x]))) (entries : List T) :
    ∃ parts, Packing (fun p => fitsPayload size (build p)) entries parts ∧
      chunkEntries size build entries = parts.map build := by
  have hmono : ∀ p x, fitsPayload size (build (p ++ [x])) = true →
      fitsPayload size (build p) = true := fun p x h =>
    decide_eq_true ((hbuild p x).trans (of_decide_eq_true h))
  have hspec := fun e entries => Packing.piece_spec (fun p => fitsPayload size (build p)) hmono
    (List.cons_ne_nil (e : T) entries)
  fun_induction chunkEntries size build entries with
  | case1 => exact ⟨[], .nil, rfl⟩
  | case2 e entries best chunk hfits ih =>
      obtain ⟨_, _, _, hfull⟩ := hspec e entries
      have hpos : 1 ≤ best := bestTake_pos size build (e :: entries)
      obtain ⟨parts, hparts, heq⟩ := ih
      refine ⟨(e :: entries).take best :: parts, ?_, by rw [heq, List.map_cons]⟩
      have hne : (e :: entries).take best ≠ [] := fun h => by
        rcases List.take_eq_nil_iff.mp h with h | h
        · omega
        · cases h
      have hcons := hparts.cons hne (.inl hfits) hfull
      rwa [List.take_append_drop] at hcons
  | case3 e entries best chunk hover ih =>
      obtain ⟨_, _, hsmall, hfull⟩ := hspec e entries
      obtain ⟨parts, hparts, heq⟩ := ih
      -- a chunk over the budget is one entry
      have hone : best = 1 := hsmall.resolve_left hover
      refine ⟨[e] :: parts, ?_, ?_⟩
      · refine hparts.cons (List.cons_ne_nil e []) (.inr rfl) ?_
        change ∀ x ∈ ((e :: entries).drop best).head?,
          fitsPayload size (build ((e :: entries).take best ++ [x])) = false at hfull
        rwa [hone] at hfull
      · rw [heq, List.map_cons]
        change build ((e :: entries).take best) :: _ = _
        rw [hone]
        rfl

/-! ### The update -/

variable (version : UInt32) (tsUnixMs : UInt64)

/-- A chunk of entries to remove. -/
def removedChunk (removed : List ArbTrackRemovedEntry) : ArbTrackRequestsUpdate :=
  ⟨version, tsUnixMs, [], removed, false⟩

/-- A chunk of active entries. -/
def activeChunk (active : List ArbTrackActiveEntry) : ArbTrackRequestsUpdate :=
  ⟨version, tsUnixMs, active, [], false⟩

/-- `chunk_removed_entries`. -/
def chunkRemovedEntries (removed : List ArbTrackRemovedEntry) : List ArbTrackRequestsUpdate :=
  chunkEntries size (removedChunk version tsUnixMs) removed

/-- `chunk_active_entries`. -/
def chunkActiveEntries (active : List ArbTrackActiveEntry) : List ArbTrackRequestsUpdate :=
  chunkEntries size (activeChunk version tsUnixMs) active

/-- `split_arb_track_requests_update`. -/
def splitArbTrackRequestsUpdate (u : ArbTrackRequestsUpdate) : List ArbTrackRequestsUpdate :=
  if u.reconcile then [u]
  else if fitsPayload size u then [u]
  else
    chunkRemovedEntries size u.version u.tsUnixMs u.removed ++
      chunkActiveEntries size u.version u.tsUnixMs u.active

/-- An update over the budget is a greedy packing of its removals, then one of its activations. -/
theorem split_eq {u : ArbTrackRequestsUpdate} (hu : u.reconcile = false)
    (hover : fitsPayload size u = false) :
    ∃ gone held,
      Packing (fun p => fitsPayload size (removedChunk u.version u.tsUnixMs p)) u.removed gone ∧
      Packing (fun p => fitsPayload size (activeChunk u.version u.tsUnixMs p)) u.active held ∧
      splitArbTrackRequestsUpdate size u =
        gone.map (removedChunk u.version u.tsUnixMs) ++
          held.map (activeChunk u.version u.tsUnixMs) := by
  obtain ⟨gone, hgone, egone⟩ := chunkEntries_eq size (removedChunk u.version u.tsUnixMs)
    (fun p x => size.bytes_pushRemoved (removedChunk u.version u.tsUnixMs p) x) u.removed
  obtain ⟨held, hheld, eheld⟩ := chunkEntries_eq size (activeChunk u.version u.tsUnixMs)
    (fun p x => size.bytes_pushActive (activeChunk u.version u.tsUnixMs p) x) u.active
  refine ⟨gone, held, hgone, hheld, ?_⟩
  unfold splitArbTrackRequestsUpdate chunkRemovedEntries chunkActiveEntries
  rw [hu, hover, if_neg Bool.false_ne_true, if_neg Bool.false_ne_true, egone, eheld]

end Split

/-! ## 3. What the chunks do -/

section Chunks

variable {version : UInt32} {tsUnixMs : UInt64} (gone : List (List ArbTrackRemovedEntry))
  (held : List (List ArbTrackActiveEntry)) (ctx : TrackPins)

theorem flatMap_removed :
    (gone.map (removedChunk version tsUnixMs) ++
      held.map (activeChunk version tsUnixMs)).flatMap (·.removed) = gone.flatten := by
  simp [List.flatMap_map, removedChunk, activeChunk]

theorem flatMap_active :
    (gone.map (removedChunk version tsUnixMs) ++
      held.map (activeChunk version tsUnixMs)).flatMap (·.active) = held.flatten := by
  simp [List.flatMap_map, removedChunk, activeChunk]

theorem apply_removedChunks :
    (gone.map (removedChunk version tsUnixMs)).foldl applyArbTrackRequestsOnTrackWorker ctx =
      applyArbRemovedEntries ctx gone.flatten := by
  rw [List.foldl_map, applyArbRemovedEntries, List.foldl_flatten]
  congr 1
  funext ctx p
  exact applyArbTrackRequestsOnTrackWorker_eq ctx (removedChunk version tsUnixMs p)

theorem apply_activeChunks :
    (held.map (activeChunk version tsUnixMs)).foldl applyArbTrackRequestsOnTrackWorker ctx =
      applyArbActiveEntries ctx held.flatten := by
  rw [List.foldl_map, applyArbActiveEntries, List.foldl_flatten]
  congr 1
  funext ctx p
  exact applyArbTrackRequestsOnTrackWorker_eq ctx (activeChunk version tsUnixMs p)

variable {gone held}

/-- **The chunks, one after another, do what the update does.** -/
theorem apply_chunks {u : ArbTrackRequestsUpdate} (hu : u.reconcile = false)
    (hgone : gone.flatten = u.removed) (hheld : held.flatten = u.active) :
    (gone.map (removedChunk version tsUnixMs) ++ held.map (activeChunk version tsUnixMs)).foldl
        applyArbTrackRequestsOnTrackWorker ctx =
      applyArbTrackRequestsOnTrackWorker ctx u := by
  rw [List.foldl_append, apply_removedChunks, apply_activeChunks, hgone, hheld,
    applyArbTrackRequestsOnTrackWorker_eq, applyArbTrackRequestsUpdate, hu]
  rfl

end Chunks

/-! ## 4. Nothing is lost -/

/-- `chunk` could not take the first entry of its kind that the chunks `after` it have. -/
def IsFull (size : PayloadBytes) (chunk : ArbTrackRequestsUpdate)
    (after : List ArbTrackRequestsUpdate) : Prop :=
  (chunk.removed ≠ [] → ∀ r ∈ (after.flatMap (·.removed)).head?,
    fitsPayload size (chunk.pushRemoved r) = false) ∧
  (chunk.active ≠ [] → ∀ a ∈ (after.flatMap (·.active)).head?,
    fitsPayload size (chunk.pushActive a) = false)

/-- `chunks` are what the update `u` is split into. -/
structure SplitsInto (size : PayloadBytes) (u : ArbTrackRequestsUpdate)
    (chunks : List ArbTrackRequestsUpdate) : Prop where
  removed : chunks.flatMap (·.removed) = u.removed
  active : chunks.flatMap (·.active) = u.active
  /-- After a chunk that activates no chunk removes. -/
  order : chunks.Pairwise fun before after => before.active ≠ [] → after.removed = []
  small : ∀ chunk ∈ chunks,
    fitsPayload size chunk = true ∨ chunk.removed.length + chunk.active.length = 1
  full : ∀ before chunk after, chunks = before ++ chunk :: after → IsFull size chunk after
  header : ∀ chunk ∈ chunks,
    chunk.version = u.version ∧ chunk.tsUnixMs = u.tsUnixMs ∧ chunk.reconcile = false
  apply : ∀ ctx, chunks.foldl applyArbTrackRequestsOnTrackWorker ctx =
    applyArbTrackRequestsOnTrackWorker ctx u

theorem SplitsInto.single {size : PayloadBytes} {u : ArbTrackRequestsUpdate}
    (hu : u.reconcile = false) (hfits : fitsPayload size u = true) : SplitsInto size u [u] where
  removed := List.flatMap_singleton _ u
  active := List.flatMap_singleton _ u
  order := List.pairwise_singleton _ u
  small := List.forall_mem_singleton.mpr (.inl hfits)
  full := fun before chunk after h => by
    have hafter : after = [] := by
      rcases List.append_eq_singleton_iff.mp h.symm with ⟨_, h⟩ | ⟨_, h⟩
      · exact (List.cons.inj h).2
      · cases h
    subst hafter
    exact ⟨fun _ r hr => (nomatch hr), fun _ a ha => (nomatch ha)⟩
  header := List.forall_mem_singleton.mpr ⟨rfl, rfl, hu⟩
  apply := fun _ => rfl

section Full

variable {size : PayloadBytes} {u : ArbTrackRequestsUpdate}
  {gone : List (List ArbTrackRemovedEntry)} {held : List (List ArbTrackActiveEntry)}

theorem isFull_removedChunk {before p after}
    (h : Packing (fun p => fitsPayload size (removedChunk u.version u.tsUnixMs p)) u.removed gone)
    (hp : gone = before ++ p :: after) :
    IsFull size (removedChunk u.version u.tsUnixMs p)
      (after.map (removedChunk u.version u.tsUnixMs) ++
        held.map (activeChunk u.version u.tsUnixMs)) := by
  refine ⟨fun _ r hr => ?_, fun hne => absurd rfl hne⟩
  rw [flatMap_removed] at hr
  exact h.full_of_append hp r hr

theorem isFull_activeChunk {before p after}
    (h : Packing (fun p => fitsPayload size (activeChunk u.version u.tsUnixMs p)) u.active held)
    (hp : held = before ++ p :: after) :
    IsFull size (activeChunk u.version u.tsUnixMs p)
      (after.map (activeChunk u.version u.tsUnixMs)) := by
  refine ⟨fun hne => absurd rfl hne, fun _ a ha => ?_⟩
  have hflat : (after.map (activeChunk u.version u.tsUnixMs)).flatMap (·.active) =
      after.flatten := flatMap_active [] after
  rw [hflat] at ha
  exact h.full_of_append hp a ha

/-- **The chunks of an update over the budget carry it.** -/
theorem SplitsInto.chunks (hu : u.reconcile = false)
    (hgone : Packing (fun p => fitsPayload size (removedChunk u.version u.tsUnixMs p))
      u.removed gone)
    (hheld : Packing (fun p => fitsPayload size (activeChunk u.version u.tsUnixMs p))
      u.active held) :
    SplitsInto size u (gone.map (removedChunk u.version u.tsUnixMs) ++
      held.map (activeChunk u.version u.tsUnixMs)) where
  removed := (flatMap_removed gone held).trans hgone.flatten
  active := (flatMap_active gone held).trans hheld.flatten
  order := by
    refine List.pairwise_append.mpr ⟨?_, ?_, fun before hbefore _ _ hne => ?_⟩
    · exact List.pairwise_map.mpr (List.pairwise_of_forall fun _ _ hne => absurd rfl hne)
    · exact List.pairwise_map.mpr (List.pairwise_of_forall fun _ _ _ => rfl)
    · obtain ⟨p, _, rfl⟩ := List.mem_map.mp hbefore
      exact absurd rfl hne
  small := fun chunk hchunk => by
    rcases List.mem_append.mp hchunk with h | h
    · obtain ⟨p, hp, rfl⟩ := List.mem_map.mp h
      exact hgone.small p hp
    · obtain ⟨p, hp, rfl⟩ := List.mem_map.mp h
      refine (hheld.small p hp).imp_right fun hone => ?_
      exact (Nat.zero_add _).trans hone
  full := fun before chunk after h => by
    rcases List.append_eq_append_iff.mp h with ⟨mid, _, h⟩ | ⟨mid, h, h'⟩
    · obtain ⟨before, rest, rfl, _, h⟩ := List.map_eq_append_iff.mp h
      obtain ⟨p, after, rfl, rfl, rfl⟩ := List.map_eq_cons_iff.mp h
      exact isFull_activeChunk hheld rfl
    · cases mid with
      | nil =>
          obtain ⟨p, after, hp, rfl, rfl⟩ := List.map_eq_cons_iff.mp h'.symm
          exact isFull_activeChunk hheld (hp.trans (List.nil_append _).symm)
      | cons c mid =>
          obtain ⟨before, rest, rfl, _, h⟩ := List.map_eq_append_iff.mp h
          obtain ⟨p, after, rfl, rfl, rfl⟩ := List.map_eq_cons_iff.mp h
          obtain ⟨rfl, rfl⟩ := List.cons.inj h'
          exact isFull_removedChunk hgone rfl
  header := fun chunk hchunk => by
    rcases List.mem_append.mp hchunk with h | h
    · obtain ⟨p, _, rfl⟩ := List.mem_map.mp h
      exact ⟨rfl, rfl, rfl⟩
    · obtain ⟨p, _, rfl⟩ := List.mem_map.mp h
      exact ⟨rfl, rfl, rfl⟩
  apply := fun ctx => apply_chunks ctx hu hgone.flatten hheld.flatten

end Full

/-- **Splitting a track update loses nothing.** -/
theorem split_loses_nothing (size : PayloadBytes) (u : ArbTrackRequestsUpdate)
    (hu : u.reconcile = false) : SplitsInto size u (splitArbTrackRequestsUpdate size u) := by
  cases hfits : fitsPayload size u with
  | true =>
      have heq : splitArbTrackRequestsUpdate size u = [u] := by
        unfold splitArbTrackRequestsUpdate
        rw [hu, hfits]
        rfl
      rw [heq]
      exact .single hu hfits
  | false =>
      obtain ⟨gone, held, hgone, hheld, heq⟩ := split_eq size hu hfits
      rw [heq]
      exact .chunks hu hgone hheld

/-- An update with one entry of each kind, both of `n` characters. -/
def oneOfEach (n : Nat) : ArbTrackRequestsUpdate where
  version := 1
  tsUnixMs := 1700000000
  active := [⟨.ofList (List.replicate n 'P'), .baseline, .warmable⟩]
  removed := [⟨.ofList (List.replicate n 'P'), .stale⟩]
  reconcile := false

theorem size_oneOfEach (n : Nat) : 2 * n < PayloadBytes.serdeJson.bytes (oneOfEach n) := by
  have hactive :=
    PayloadBytes.size_activeJson ⟨.ofList (List.replicate n 'P'), .baseline, .warmable⟩
  have hremoved := PayloadBytes.size_removedJson ⟨.ofList (List.replicate n 'P'), .stale⟩
  have htext := PayloadBytes.size_jsonText_replicate n
  have hboth := PayloadBytes.le_size_updateJson (u := oneOfEach n) rfl rfl
  change 2 * n < (PayloadBytes.updateJson (oneOfEach n)).utf8ByteSize
  simp only [htext] at hactive hremoved
  omega

theorem fitsPayload_oneOfEach {n : Nat} (h : arbTrackPublishMaxPayloadBytes ≤ 2 * n) :
    fitsPayload .serdeJson (oneOfEach n) = false :=
  decide_eq_false (Nat.not_le_of_lt (h.trans_lt (size_oneOfEach n)))

theorem reconcile_oneOfEach (n : Nat) : (oneOfEach n).reconcile = false := rfl

theorem over_loses_nothing :
    fitsPayload .serdeJson (oneOfEach 450000) = false ∧
      SplitsInto .serdeJson (oneOfEach 450000)
        (splitArbTrackRequestsUpdate .serdeJson (oneOfEach 450000)) :=
  ⟨fitsPayload_oneOfEach (by decide),
    split_loses_nothing .serdeJson (oneOfEach 450000) (reconcile_oneOfEach 450000)⟩

end IronCrab.Track
