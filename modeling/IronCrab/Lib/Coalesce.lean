/-
  File:      IronCrab/Lib/Coalesce.lean
  Subject:   A BURST OF JOBS COALESCED IN PLACE. Nothing here names a program.

  A job whose key is already on the board is merged into the place of that key; every other job
  goes to the end. A second table says where the job of a key stands.

  * `Indexed` -- the table points at exactly the jobs that have a key;
  * `put_digested` -- one job: the board stays indexed, its key holds one more merge;
  * `burst_digested` -- a whole burst never points outside the board, keeps the jobs without a key
    as they came, and holds for a key the merge of its jobs in arrival order.
-/
import Mathlib.Data.Finmap

namespace Coalesce

variable {J K : Type} [DecidableEq K]

/-! ## 1. The board -/

/-- The jobs put out so far, and where the job of each key stands. -/
structure Board (J K : Type) [DecidableEq K] where
  out : List J
  place : Finmap fun _ : K => Nat

namespace Board

def empty : Board J K := ⟨[], ∅⟩

variable (key : J → Option K) (merge : J → J → J)

/-- One job; `none` is a place outside the board. -/
def put (b : Board J K) (job : J) : Option (Board J K) :=
  match key job with
  | none => some { b with out := b.out ++ [job] }
  | some k =>
      match b.place.lookup k with
      | none => some ⟨b.out ++ [job], b.place.insert k b.out.length⟩
      | some i => (b.out[i]?).map fun old => { b with out := b.out.set i (merge old job) }

/-- A burst, in arrival order. -/
def burst (jobs : List J) : Option (Board J K) := jobs.foldlM (put key merge) empty

/-- **The table points at exactly the jobs that have a key.** -/
def Indexed (b : Board J K) : Prop :=
  ∀ k i, b.place.lookup k = some i ↔ ∃ job, b.out[i]? = some job ∧ key job = some k

end Board

/-! ## 2. The jobs of one key -/

variable (key : J → Option K)

/-- The jobs of a key. -/
def withKey (k : K) (jobs : List J) : List J := jobs.filter fun job => decide (key job = some k)

/-- The jobs without a key. -/
def keyless (jobs : List J) : List J := jobs.filter fun job => decide (key job = none)

variable {key}

theorem mem_withKey {k : K} {jobs : List J} {job : J} :
    job ∈ withKey key k jobs ↔ job ∈ jobs ∧ key job = some k := by
  unfold withKey
  rw [List.mem_filter, decide_eq_true_iff]

theorem withKey_snoc_self {k : K} {job : J} (h : key job = some k) (jobs : List J) :
    withKey key k (jobs ++ [job]) = withKey key k jobs ++ [job] := by
  unfold withKey
  rw [List.filter_append, List.filter_cons_of_pos (by simpa using h), List.filter_nil]

theorem withKey_snoc_ne {k : K} {job : J} (h : key job ≠ some k) (jobs : List J) :
    withKey key k (jobs ++ [job]) = withKey key k jobs := by
  unfold withKey
  rw [List.filter_append, List.filter_cons_of_neg (by simpa using h), List.filter_nil,
    List.append_nil]

omit [DecidableEq K] in
theorem keyless_snoc_none {job : J} (h : key job = none) (jobs : List J) :
    keyless key (jobs ++ [job]) = keyless key jobs ++ [job] := by
  unfold keyless
  rw [List.filter_append, List.filter_cons_of_pos (by simpa using h), List.filter_nil]

omit [DecidableEq K] in
theorem keyless_snoc_some {k : K} {job : J} (h : key job = some k) (jobs : List J) :
    keyless key (jobs ++ [job]) = keyless key jobs := by
  unfold keyless
  rw [List.filter_append, List.filter_cons_of_neg (by simp [h]), List.filter_nil, List.append_nil]

/-- An element that is exchanged for another which the filter treats alike. -/
theorem filter_set_of_neg {p : J → Bool} {l : List J} {i : Nat} {old new : J}
    (hi : l[i]? = some old) (hold : p old = false) (hnew : p new = false) :
    (l.set i new).filter p = l.filter p := by
  obtain ⟨hlt, rfl⟩ := List.getElem?_eq_some_iff.mp hi
  have hsplit : l = l.take i ++ l[i] :: l.drop (i + 1) := by
    rw [← List.drop_eq_getElem_cons hlt, List.take_append_drop]
  rw [List.set_eq_take_append_cons_drop, if_pos hlt]
  conv_rhs => rw [hsplit]
  rw [List.filter_append, List.filter_append, List.filter_cons_of_neg (by simp [hnew]),
    List.filter_cons_of_neg (by simp [hold])]

/-- What the merges of a list of jobs leave, in arrival order. -/
def digest (merge : J → J → J) : List J → Option J
  | [] => none
  | job :: jobs => some (jobs.foldl merge job)

theorem digest_snoc_of_none {merge : J → J → J} {jobs : List J} (h : digest merge jobs = none)
    (job : J) : digest merge (jobs ++ [job]) = some job := by
  cases jobs with
  | nil => rfl
  | cons first jobs => cases h

theorem digest_snoc_of_some {merge : J → J → J} {jobs : List J} {old : J}
    (h : digest merge jobs = some old) (job : J) :
    digest merge (jobs ++ [job]) = some (merge old job) := by
  cases jobs with
  | nil => cases h
  | cons first jobs =>
      cases h
      show some ((jobs ++ [job]).foldl merge first) = _
      rw [List.foldl_append]
      rfl

/-! ## 3. A burst -/

namespace Board

section Steps

variable {merge : J → J → J} {b : Board J K} {job : J} {k : K}

theorem Indexed.withKey_of_none (h : b.Indexed key) (hk : b.place.lookup k = none) :
    withKey key k b.out = [] := by
  refine List.eq_nil_iff_forall_not_mem.mpr fun job hmem => ?_
  obtain ⟨hout, hkey⟩ := mem_withKey.mp hmem
  obtain ⟨i, hi⟩ := List.mem_iff_getElem?.mp hout
  have hplace := (h k i).mpr ⟨job, hi, hkey⟩
  rw [hk] at hplace
  cases hplace

/-- **A key that is on the board has one job there**: in every list that differs from the board at
    its place only. -/
theorem Indexed.withKey_set (h : b.Indexed key) {i : Nat} (hk : b.place.lookup k = some i)
    (hnew : key job = some k) : withKey key k (b.out.set i job) = [job] := by
  obtain ⟨old, hi, hold⟩ := (h k i).mp hk
  obtain ⟨hlt, -⟩ := List.getElem?_eq_some_iff.mp hi
  have hother : ∀ m, m ≠ i → ∀ x, b.out[m]? = some x → ¬ key x = some k := by
    intro m hm x hx hkey
    have hplace := (h k m).mpr ⟨x, hx, hkey⟩
    rw [hk] at hplace
    exact hm (Option.some.inj hplace).symm
  have hbefore : withKey key k (b.out.take i) = [] := by
    refine List.eq_nil_iff_forall_not_mem.mpr fun x hmem => ?_
    obtain ⟨hx, hkey⟩ := mem_withKey.mp hmem
    obtain ⟨m, hm⟩ := List.mem_iff_getElem?.mp hx
    obtain ⟨hmlt, -⟩ := List.getElem?_eq_some_iff.mp hm
    have hmi : m < i := lt_of_lt_of_le hmlt (List.length_take_le i _)
    rw [List.getElem?_take_of_lt hmi] at hm
    exact hother m hmi.ne x hm hkey
  have hafter : withKey key k (b.out.drop (i + 1)) = [] := by
    refine List.eq_nil_iff_forall_not_mem.mpr fun x hmem => ?_
    obtain ⟨hx, hkey⟩ := mem_withKey.mp hmem
    obtain ⟨m, hm⟩ := List.mem_iff_getElem?.mp hx
    rw [List.getElem?_drop] at hm
    exact hother (i + 1 + m) (by omega) x hm hkey
  unfold withKey at hbefore hafter ⊢
  rw [List.set_eq_take_append_cons_drop, if_pos hlt, List.filter_append, hbefore,
    List.filter_cons_of_pos (by simpa using hnew), hafter]
  rfl

theorem Indexed.withKey_of_some (h : b.Indexed key) {i : Nat} (hk : b.place.lookup k = some i)
    {old : J} (hi : b.out[i]? = some old) : withKey key k b.out = [old] := by
  obtain ⟨old', hi', hold⟩ := (h k i).mp hk
  rw [hi] at hi'
  cases hi'
  have hset := h.withKey_set hk hold
  obtain ⟨hlt, rfl⟩ := List.getElem?_eq_some_iff.mp hi
  rwa [List.set_getElem_self] at hset

/-- A job of a new key, or of none, goes to the end. -/
theorem Indexed.snoc (h : b.Indexed key) {place : Finmap fun _ : K => Nat}
    (hplace : ∀ k i, place.lookup k = some i ↔
      b.place.lookup k = some i ∨ i = b.out.length ∧ key job = some k) :
    (⟨b.out ++ [job], place⟩ : Board J K).Indexed key := by
  intro k i
  show place.lookup k = some i ↔ ∃ x, (b.out ++ [job])[i]? = some x ∧ key x = some k
  rw [hplace, h k i]
  rcases lt_trichotomy i b.out.length with hlt | heq | hgt
  · rw [List.getElem?_append_left hlt]
    exact or_iff_left fun hi => absurd hi.1 hlt.ne
  · subst heq
    rw [List.getElem?_concat_length, List.getElem?_eq_none le_rfl]
    constructor
    · rintro (⟨x, hx, -⟩ | ⟨-, hkey⟩)
      · cases hx
      · exact ⟨job, rfl, hkey⟩
    · rintro ⟨x, hx, hkey⟩
      cases hx
      exact .inr ⟨rfl, hkey⟩
  · have hlen : (b.out ++ [job]).length ≤ i := by
      rw [List.length_append, List.length_singleton]
      omega
    rw [List.getElem?_eq_none hlen, List.getElem?_eq_none hgt.le]
    exact or_iff_left fun hi => absurd hi.1 hgt.ne'

/-- A job over the one of its key leaves every place as it is. -/
theorem Indexed.set (h : b.Indexed key) {i : Nat} (hk : b.place.lookup k = some i)
    (hnew : key job = some k) : ({ b with out := b.out.set i job } : Board J K).Indexed key := by
  obtain ⟨old, hi, hold⟩ := (h k i).mp hk
  obtain ⟨hlt, -⟩ := List.getElem?_eq_some_iff.mp hi
  intro k' i'
  show b.place.lookup k' = some i' ↔ ∃ x, (b.out.set i job)[i']? = some x ∧ key x = some k'
  rw [h k' i']
  by_cases hii : i' = i
  · subst hii
    rw [List.getElem?_set_self hlt, hi]
    constructor
    · rintro ⟨x, hx, hkey⟩
      cases hx
      exact ⟨job, rfl, by rw [hnew, ← hold, hkey]⟩
    · rintro ⟨x, hx, hkey⟩
      cases hx
      exact ⟨old, rfl, by rw [hold, ← hnew, hkey]⟩
  · rw [List.getElem?_set_ne (Ne.symm hii)]

end Steps

variable (key) (merge : J → J → J)

/-- **What a board says about the jobs that have come.** -/
structure Digested (b : Board J K) (jobs : List J) : Prop where
  indexed : b.Indexed key
  keyed : ∀ k, withKey key k b.out = (digest merge (withKey key k jobs)).toList
  keyless : Coalesce.keyless key b.out = Coalesce.keyless key jobs

variable {key merge} {b : Board J K} {jobs : List J}

theorem digested_empty : Digested key merge (empty : Board J K) [] where
  indexed := fun _ _ => iff_of_false (nofun) (nofun)
  keyed := fun _ => rfl
  keyless := rfl

/-- **One job**, where a merge keeps the key of what it merges. -/
theorem put_digested (hmerge : ∀ old new k, key old = some k → key new = some k →
      key (merge old new) = some k) (h : Digested key merge b jobs) (job : J) :
    ∃ b', put key merge b job = some b' ∧ Digested key merge b' (jobs ++ [job]) := by
  unfold put
  cases hkey : key job with
  | none =>
      refine ⟨_, rfl, h.indexed.snoc fun k i => ?_, fun k => ?_, ?_⟩
      · rw [hkey]
        exact (or_iff_left fun hi => nomatch hi.2).symm
      · have hne : key job ≠ some k := hkey ▸ (nofun)
        show withKey key k (b.out ++ [job]) = _
        rw [withKey_snoc_ne hne, withKey_snoc_ne hne, h.keyed]
      · show Coalesce.keyless key (b.out ++ [job]) = _
        rw [keyless_snoc_none hkey, keyless_snoc_none hkey, h.keyless]
  | some k =>
      dsimp only
      cases hplace : b.place.lookup k with
      | none =>
          refine ⟨_, rfl, h.indexed.snoc fun k' i => ?_, fun k' => ?_, ?_⟩
          · rw [hkey]
            by_cases hk : k' = k
            · subst hk
              rw [Finmap.lookup_insert, hplace]
              constructor
              · intro hi
                exact .inr ⟨(Option.some.inj hi).symm, rfl⟩
              · rintro (hi | ⟨rfl, -⟩)
                · cases hi
                · rfl
            · rw [Finmap.lookup_insert_of_ne _ hk]
              exact (or_iff_left fun hi => hk (Option.some.inj hi.2).symm).symm
          · show withKey key k' (b.out ++ [job]) = _
            by_cases hk : k' = k
            · subst hk
              have hnil := h.indexed.withKey_of_none hplace
              have hold : digest merge (withKey key k' jobs) = none := by
                have heq := h.keyed k'
                rw [hnil] at heq
                cases hd : digest merge (withKey key k' jobs) with
                | none => rfl
                | some old =>
                    rw [hd] at heq
                    cases heq
              rw [withKey_snoc_self hkey, withKey_snoc_self hkey, hnil, digest_snoc_of_none hold]
              rfl
            · have hne : key job ≠ some k' := fun heq => hk (Option.some.inj (hkey ▸ heq)).symm
              rw [withKey_snoc_ne hne, withKey_snoc_ne hne, h.keyed]
          · show Coalesce.keyless key (b.out ++ [job]) = _
            rw [keyless_snoc_some hkey, keyless_snoc_some hkey, h.keyless]
      | some i =>
          obtain ⟨old, hi, hold⟩ := (h.indexed k i).mp hplace
          have hnew := hmerge old job k hold hkey
          dsimp only
          rw [hi]
          refine ⟨_, rfl, h.indexed.set hplace hnew, fun k' => ?_, ?_⟩
          · show withKey key k' (b.out.set i (merge old job)) = _
            by_cases hk : k' = k
            · subst hk
              have hd : digest merge (withKey key k' jobs) = some old := by
                have heq := h.keyed k'
                rw [h.indexed.withKey_of_some hplace hi] at heq
                exact (Option.toList_eq_singleton_iff.mp heq.symm)
              rw [h.indexed.withKey_set hplace hnew, withKey_snoc_self hkey,
                digest_snoc_of_some hd]
              rfl
            · have hne : ∀ x, key x = some k → decide (key x = some k') = false := fun x hx =>
                decide_eq_false fun heq => hk (Option.some.inj (hx ▸ heq)).symm
              rw [withKey_snoc_ne (of_decide_eq_false (hne job hkey)), ← h.keyed]
              exact filter_set_of_neg hi (hne old hold) (hne _ hnew)
          · show Coalesce.keyless key (b.out.set i (merge old job)) = _
            have hne : ∀ x, key x = some k → decide (key x = none) = false := fun x hx =>
              decide_eq_false (hx ▸ (nofun))
            rw [keyless_snoc_some hkey, ← h.keyless]
            exact filter_set_of_neg hi (hne old hold) (hne _ hnew)

/-- **A whole burst.** -/
theorem burst_digested (hmerge : ∀ old new k, key old = some k → key new = some k →
      key (merge old new) = some k) (jobs : List J) :
    ∃ b, burst key merge jobs = some b ∧ Digested key merge b jobs := by
  suffices h : ∀ rest (b : Board J K) done, Digested key merge b done →
      ∃ b', rest.foldlM (put key merge) b = some b' ∧ Digested key merge b' (done ++ rest) from
    h jobs empty [] digested_empty
  intro rest
  induction rest with
  | nil => exact fun b done h => ⟨b, rfl, by rwa [List.append_nil]⟩
  | cons job rest ih =>
      intro b done h
      obtain ⟨b₁, hb₁, h₁⟩ := put_digested hmerge h job
      obtain ⟨b₂, hb₂, h₂⟩ := ih b₁ (done ++ [job]) h₁
      refine ⟨b₂, ?_, by rwa [List.append_assoc] at h₂⟩
      rw [List.foldlM_cons, hb₁]
      exact hb₂

end Board

end Coalesce
