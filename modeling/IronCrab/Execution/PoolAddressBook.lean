/-
  File:      IronCrab/Execution/PoolAddressBook.lean
  Subject:   THE BOOK OF UNPINNED POOL LAYOUTS (src/execution/pool_address_book.rs): rows merged
             from partial observations, with a time to live and a cap.

  * `mergeLayoutKeys` -- a known address stays, an unknown one is taken from the observation;
  * `Watched` -- a book beside what was observed of each row since it came;
  * `Learned`, `Sound` -- what a row knows of what was observed of it, and what holds of a book;
  * `step_sound` -- what one operation preserves;
  * **`book_sound`** -- so what every careful run preserves: a complete account list never comes
    after an incomplete one of the same row;
  * `partial_list_sticks` -- where it does, the complete list is dropped.
-/
import IronCrab.Cache.PoolState
import IronCrab.Lib.Machine
import IronCrab.Lib.Trim
import Mathlib.Data.Prod.Lex
import Mathlib.Order.BooleanAlgebra.Basic

namespace IronCrab.Execution

open Machine
open Track (Pubkey)
open Cache (Pubkey.default)

/-! ## 1. Layout keys -/

/-- `PoolLayoutKeys`. -/
inductive PoolLayoutKeys where
  | pumpAmm (baseMint quoteMint poolBaseTokenAccount poolQuoteTokenAccount : Pubkey)
      (poolAccounts : List Pubkey)
  | orca (tokenMintA tokenMintB tokenVaultA tokenVaultB : Pubkey)
  | raydiumCpmm (token0Mint token1Mint token0Vault token1Vault : Pubkey)
  | meteora (tokenXMint tokenYMint reserveX reserveY : Pubkey)
  | raydiumAmm (baseMint quoteMint coinVault pcVault : Pubkey)
  deriving DecidableEq

/-- `if existing == Pubkey::default() { incoming } else { existing }`. -/
def preferExisting (existing incoming : Pubkey) : Pubkey :=
  if existing = Pubkey.default then incoming else existing

/-- The Pump AMM row has all the accounts of a v14 instruction, the pool first. -/
def pumpAmmV14PinPayload (pool : Pubkey) : PoolLayoutKeys → Bool
  | .pumpAmm _ _ _ _ poolAccounts =>
      decide (14 ≤ poolAccounts.length) && decide (poolAccounts.head? = some pool)
  | _ => false

def mergeLayoutKeys (existing incoming : PoolLayoutKeys) : PoolLayoutKeys :=
  match existing, incoming with
  | .pumpAmm exBm exQm exB exQ exPa, .pumpAmm inBm inQm inB inQ inPa =>
      .pumpAmm (preferExisting exBm inBm) (preferExisting exQm inQm) (preferExisting exB inB)
        (preferExisting exQ inQ) (if exPa.isEmpty && !inPa.isEmpty then inPa else exPa)
  | .orca exMa exMb exVa exVb, .orca inMa inMb inVa inVb =>
      .orca (preferExisting exMa inMa) (preferExisting exMb inMb) (preferExisting exVa inVa)
        (preferExisting exVb inVb)
  | .raydiumCpmm exM0 exM1 exV0 exV1, .raydiumCpmm inM0 inM1 inV0 inV1 =>
      .raydiumCpmm (preferExisting exM0 inM0) (preferExisting exM1 inM1) (preferExisting exV0 inV0)
        (preferExisting exV1 inV1)
  | .meteora exMx exMy exRx exRy, .meteora inMx inMy inRx inRy =>
      .meteora (preferExisting exMx inMx) (preferExisting exMy inMy) (preferExisting exRx inRx)
        (preferExisting exRy inRy)
  | .raydiumAmm exBm exQm exCv exPv, .raydiumAmm inBm inQm inCv inPv =>
      .raydiumAmm (preferExisting exBm inBm) (preferExisting exQm inQm) (preferExisting exCv inCv)
        (preferExisting exPv inPv)
  | existing, _ => existing

/-! ## 2. The book -/

/-- `BookEntry`. -/
structure BookEntry where
  keys : PoolLayoutKeys
  lastSeenMs : Nat
  lruStamp : Nat
  deriving DecidableEq

/-- `PoolAddressBook`. -/
structure PoolAddressBook where
  entries : AList fun _ : Pubkey => BookEntry
  ttlMs : Nat
  cap : Nat
  lruClock : Nat

namespace PoolAddressBook

def withTtlAndCap (ttlMs cap : Nat) : PoolAddressBook := ⟨∅, ttlMs, cap, 0⟩

def len (book : PoolAddressBook) : Nat := book.entries.entries.length

/-- The clock is a `u64`. -/
def nextLruStamp (book : PoolAddressBook) : Nat := (book.lruClock + 1) % 2 ^ 64

/-- A row stays past its time to live if it is complete. -/
def stays (book : PoolAddressBook) (nowMs : Nat) (pool : Pubkey) (e : BookEntry) : Bool :=
  pumpAmmV14PinPayload pool e.keys || decide (nowMs - e.lastSeenMs ≤ book.ttlMs)

def evictStale (book : PoolAddressBook) (nowMs : Nat) : PoolAddressBook × Nat :=
  let after := { book with entries := book.entries.retain (book.stays nowMs) }
  (after, book.len - after.len)

/-- Incomplete rows before complete ones; then the oldest stamp. -/
def evictPriority (pool : Pubkey) (e : BookEntry) : Lex (Bool × Nat) :=
  toLex (pumpAmmV14PinPayload pool e.keys, e.lruStamp)

/-- `evict_over_cap`: the first rows by `evictPriority` go. -/
def evictOverCap (book : PoolAddressBook) : PoolAddressBook :=
  { book with entries := book.entries.trim evictPriority book.cap }

/-- `merge` up to the eviction over the cap. -/
def insertMerged (book : PoolAddressBook) (pool : Pubkey) (incoming : PoolLayoutKeys)
    (nowMs : Nat) : PoolAddressBook :=
  let book := (book.evictStale nowMs).1
  let merged := match book.entries.lookup pool with
    | some existing => mergeLayoutKeys existing.keys incoming
    | none => incoming
  let stamp := book.nextLruStamp
  { book with
    entries := book.entries.insert pool ⟨merged, nowMs, stamp⟩
    lruClock := stamp }

def merge (book : PoolAddressBook) (pool : Pubkey) (incoming : PoolLayoutKeys) (nowMs : Nat) :
    PoolAddressBook :=
  (book.insertMerged pool incoming nowMs).evictOverCap

def take (book : PoolAddressBook) (pool : Pubkey) : PoolAddressBook × Option PoolLayoutKeys :=
  ({ book with entries := book.entries.erase pool }, (book.entries.lookup pool).map BookEntry.keys)

def insertFromDemote (book : PoolAddressBook) (pool : Pubkey) (keys : PoolLayoutKeys)
    (nowMs : Nat) : PoolAddressBook :=
  book.merge pool keys nowMs

end PoolAddressBook

/-- An operation on a book. -/
inductive BookOp where
  | merge (pool : Pubkey) (incoming : PoolLayoutKeys) (nowMs : Nat)
  | insertFromDemote (pool : Pubkey) (keys : PoolLayoutKeys) (nowMs : Nat)
  | take (pool : Pubkey)
  | evictStale (nowMs : Nat)
  deriving DecidableEq

def PoolAddressBook.apply (book : PoolAddressBook) : BookOp → PoolAddressBook
  | .merge pool incoming nowMs => book.merge pool incoming nowMs
  | .insertFromDemote pool keys nowMs => book.insertFromDemote pool keys nowMs
  | .take pool => (book.take pool).1
  | .evictStale nowMs => (book.evictStale nowMs).1

/-! ## 3. What a merge keeps -/

namespace PoolLayoutKeys

/-- The DEX of a row. -/
inductive Kind where
  | pumpAmm | orca | raydiumCpmm | meteora | raydiumAmm
  deriving DecidableEq

def kind : PoolLayoutKeys → Kind
  | pumpAmm .. => .pumpAmm
  | orca .. => .orca
  | raydiumCpmm .. => .raydiumCpmm
  | meteora .. => .meteora
  | raydiumAmm .. => .raydiumAmm

def four (a b c d : Pubkey) : Fin 4 → Pubkey
  | 0 => a
  | 1 => b
  | 2 => c
  | 3 => d

/-- The four addresses of a row, in the order of its fields. -/
def address : PoolLayoutKeys → Fin 4 → Pubkey
  | pumpAmm a b c d _ => four a b c d
  | orca a b c d => four a b c d
  | raydiumCpmm a b c d => four a b c d
  | meteora a b c d => four a b c d
  | raydiumAmm a b c d => four a b c d

/-- The account list of a Pump AMM row; other rows have none. -/
def accounts : PoolLayoutKeys → List Pubkey
  | pumpAmm _ _ _ _ poolAccounts => poolAccounts
  | _ => []

variable {existing incoming : PoolLayoutKeys}

theorem merge_of_kind_ne (h : incoming.kind ≠ existing.kind) :
    mergeLayoutKeys existing incoming = existing := by
  cases existing <;> cases incoming <;> first | rfl | exact absurd rfl h

theorem kind_merge : (mergeLayoutKeys existing incoming).kind = existing.kind := by
  cases existing <;> cases incoming <;> rfl

theorem four_merge (a b c d a' b' c' d' : Pubkey) (i : Fin 4) :
    four (preferExisting a a') (preferExisting b b') (preferExisting c c') (preferExisting d d') i =
      if four a b c d i = Pubkey.default then four a' b' c' d' i else four a b c d i := by
  match i with
  | 0 => rfl
  | 1 => rfl
  | 2 => rfl
  | 3 => rfl

theorem address_merge (h : incoming.kind = existing.kind) (i : Fin 4) :
    (mergeLayoutKeys existing incoming).address i =
      if existing.address i = Pubkey.default then incoming.address i else existing.address i := by
  cases existing <;> cases incoming <;> first | exact four_merge _ _ _ _ _ _ _ _ i | cases h

theorem accounts_merge (h : incoming.kind = existing.kind) :
    (mergeLayoutKeys existing incoming).accounts =
      if existing.accounts = [] then incoming.accounts else existing.accounts := by
  cases existing <;> cases incoming <;> first | exact (if_pos rfl).symm | (cases h; done) | skip
  next exPa _ _ _ _ inPa =>
    show (if exPa.isEmpty && !inPa.isEmpty then inPa else exPa) = if exPa = [] then inPa else exPa
    cases exPa with
    | cons a l => rfl
    | nil =>
        cases inPa with
        | nil => rfl
        | cons a l => rfl

theorem v14_iff {pool : Pubkey} {keys : PoolLayoutKeys} :
    pumpAmmV14PinPayload pool keys = true ↔
      14 ≤ keys.accounts.length ∧ keys.accounts.head? = some pool := by
  cases keys with
  | pumpAmm a b c d poolAccounts =>
      show (decide (14 ≤ poolAccounts.length) && decide (poolAccounts.head? = some pool)) = true ↔ _
      rw [Bool.and_eq_true, decide_eq_true_iff, decide_eq_true_iff]
      rfl
  | _ =>
      constructor
      · intro h
        cases h
      · rintro ⟨h, _⟩
        exact absurd h (Nat.not_succ_le_zero 13)

theorem kind_of_v14 {pool : Pubkey} {keys : PoolLayoutKeys}
    (h : pumpAmmV14PinPayload pool keys = true) : keys.kind = .pumpAmm := by
  cases keys with
  | pumpAmm a b c d poolAccounts => rfl
  | _ => cases h

/-- A complete row stays complete. -/
theorem v14_merge_of_existing {pool : Pubkey} (h : pumpAmmV14PinPayload pool existing = true) :
    pumpAmmV14PinPayload pool (mergeLayoutKeys existing incoming) = true := by
  by_cases hkind : incoming.kind = existing.kind
  · have hfull := v14_iff.mp h
    have hne : existing.accounts ≠ [] := by
      intro hnil
      rw [hnil] at hfull
      exact absurd hfull.1 (by decide)
    rw [v14_iff, accounts_merge hkind, if_neg hne]
    exact hfull
  · rw [merge_of_kind_ne hkind]
    exact h

/-- A row without a list takes a complete one. -/
theorem v14_merge_of_incoming {pool : Pubkey} (h : pumpAmmV14PinPayload pool incoming = true)
    (hkind : existing.kind = .pumpAmm) (hnil : existing.accounts = []) :
    pumpAmmV14PinPayload pool (mergeLayoutKeys existing incoming) = true := by
  rw [v14_iff, accounts_merge ((kind_of_v14 h).trans hkind.symm), if_pos hnil]
  exact v14_iff.mp h

end PoolLayoutKeys

/-! ## 4. What was observed -/

/-- A merged observation: which merge of the run it was, when, and what it carried. -/
structure Observation where
  index : Nat
  nowMs : Nat
  keys : PoolLayoutKeys
  deriving DecidableEq

/-- What the observations first say of a field: the first value that is not the unset one. -/
def firstKnown {A : Type} [DecidableEq A] (f : PoolLayoutKeys → A) (unset : A)
    (obs : List Observation) : A :=
  ((obs.map fun o => f o.keys).find? fun a => a ≠ unset).getD unset

theorem firstKnown_snoc {A : Type} [DecidableEq A] (f : PoolLayoutKeys → A) (unset : A)
    (obs : List Observation) (o : Observation) :
    firstKnown f unset (obs ++ [o]) =
      if firstKnown f unset obs = unset then f o.keys else firstKnown f unset obs := by
  unfold firstKnown
  rw [List.map_append, List.find?_append]
  cases hfind : (obs.map fun o => f o.keys).find? fun a => a ≠ unset with
  | some a =>
      have ha : a ≠ unset := by simpa using List.find?_some hfind
      exact (if_neg ha).symm
  | none =>
      rw [Option.none_or, Option.getD_none, if_pos rfl]
      by_cases ho : f o.keys = unset
      · rw [List.map_singleton, List.find?_singleton, if_neg (by rw [ho]; simp)]
        exact ho.symm
      · rw [List.map_singleton, List.find?_singleton, if_pos (decide_eq_true ho)]
        rfl

/-- The observations of a DEX. -/
def ofKind (kind : PoolLayoutKeys.Kind) (obs : List Observation) : List Observation :=
  obs.filter fun o => o.keys.kind = kind

theorem ofKind_snoc (kind : PoolLayoutKeys.Kind) (obs : List Observation) (o : Observation) :
    ofKind kind (obs ++ [o]) = ofKind kind obs ++ if o.keys.kind = kind then [o] else [] := by
  unfold ofKind
  rw [List.filter_append, List.filter_singleton]
  by_cases hkind : o.keys.kind = kind
  · rw [if_pos hkind, decide_eq_true hkind]
    rfl
  · rw [if_neg hkind, decide_eq_false hkind]
    rfl

/-- **What a row knows of the observations merged into it**: it is of the first one's DEX, and each
    of its addresses is the first that any observation of this DEX knows. -/
structure Learned (obs : List Observation) (keys : PoolLayoutKeys) : Prop where
  kind : obs.head?.map (fun o => o.keys.kind) = some keys.kind
  address : ∀ i, keys.address i =
    firstKnown (fun k => k.address i) Pubkey.default (ofKind keys.kind obs)
  accounts : keys.accounts = firstKnown PoolLayoutKeys.accounts [] (ofKind keys.kind obs)

theorem learned_first (o : Observation) : Learned [o] o.keys := by
  have hof : ofKind o.keys.kind [o] = [] ++ [o] := by
    rw [← List.nil_append [o], ofKind_snoc, if_pos rfl]
    rfl
  refine ⟨rfl, fun i => ?_, ?_⟩
  · rw [hof, firstKnown_snoc]
    exact (if_pos rfl).symm
  · rw [hof, firstKnown_snoc]
    exact (if_pos rfl).symm

/-- **A merge learns what the row does not know.** -/
theorem Learned.merge {obs : List Observation} {keys : PoolLayoutKeys} (h : Learned obs keys)
    (o : Observation) : Learned (obs ++ [o]) (mergeLayoutKeys keys o.keys) := by
  have hhead : (obs ++ [o]).head?.map (fun o => o.keys.kind) = some keys.kind := by
    cases obs with
    | nil =>
        have hk := h.kind
        cases hk
    | cons first rest => exact h.kind
  by_cases hkind : o.keys.kind = keys.kind
  · have hof : ofKind keys.kind (obs ++ [o]) = ofKind keys.kind obs ++ [o] := by
      rw [ofKind_snoc, if_pos hkind]
    refine ⟨?_, fun i => ?_, ?_⟩
    · rw [PoolLayoutKeys.kind_merge]
      exact hhead
    · rw [PoolLayoutKeys.kind_merge, hof, firstKnown_snoc, ← h.address i,
        PoolLayoutKeys.address_merge hkind]
    · rw [PoolLayoutKeys.kind_merge, hof, firstKnown_snoc, ← h.accounts,
        PoolLayoutKeys.accounts_merge hkind]
  · have hof : ofKind keys.kind (obs ++ [o]) = ofKind keys.kind obs := by
      rw [ofKind_snoc, if_neg hkind, List.append_nil]
    rw [PoolLayoutKeys.merge_of_kind_ne hkind]
    refine ⟨hhead, fun i => ?_, ?_⟩
    · rw [hof]
      exact h.address i
    · rw [hof]
      exact h.accounts

/-- A book beside the number of merges so far, and what was merged into each row since it came. -/
structure Watched where
  book : PoolAddressBook
  merges : Nat
  seen : Pubkey → List Observation

namespace Watched

def start (ttlMs cap : Nat) : Watched := ⟨.withTtlAndCap ttlMs cap, 0, fun _ => []⟩

/-- What is merged into a row adds to what was merged into it before, if it is still there. -/
def merged (w : Watched) (pool : Pubkey) (incoming : PoolLayoutKeys) (nowMs : Nat) : Watched where
  book := w.book.merge pool incoming nowMs
  merges := w.merges + 1
  seen := Function.update w.seen pool
    ((if ((w.book.evictStale nowMs).1.entries.lookup pool).isSome then w.seen pool else []) ++
      [⟨w.merges + 1, nowMs, incoming⟩])

def step (w : Watched) : BookOp → Watched
  | .merge pool incoming nowMs => w.merged pool incoming nowMs
  | .insertFromDemote pool keys nowMs => w.merged pool keys nowMs
  | .take pool => { w with book := (w.book.take pool).1 }
  | .evictStale nowMs => { w with book := (w.book.evictStale nowMs).1 }

/-- **A careful merge**: a complete account list finds no row, a complete one, or one of its DEX
    without a list; and the clock has not run through the `u64`s. -/
def CarefulMerge (w : Watched) (pool : Pubkey) (incoming : PoolLayoutKeys) (nowMs : Nat) : Prop :=
  w.book.lruClock + 1 < 2 ^ 64 ∧
    (pumpAmmV14PinPayload pool incoming = true →
      ∀ e, (w.book.evictStale nowMs).1.entries.lookup pool = some e →
        pumpAmmV14PinPayload pool e.keys = true ∨
          e.keys.kind = .pumpAmm ∧ e.keys.accounts = [])

def Careful (w : Watched) : BookOp → Prop
  | .merge pool incoming nowMs => w.CarefulMerge pool incoming nowMs
  | .insertFromDemote pool keys nowMs => w.CarefulMerge pool keys nowMs
  | _ => True

/-! ## 5. What holds of a book -/

/-- **What holds of a row**: what it learned, when it was last merged, and that it is complete once
    a complete account list was merged into it. -/
structure RowSound (w : Watched) (pool : Pubkey) (e : BookEntry) : Prop where
  learned : Learned (w.seen pool) e.keys
  last : ∃ o, (w.seen pool).getLast? = some o ∧ o.index = e.lruStamp ∧ o.nowMs = e.lastSeenMs
  stamp_le : e.lruStamp ≤ w.merges
  complete : (∃ o ∈ w.seen pool, pumpAmmV14PinPayload pool o.keys = true) →
    pumpAmmV14PinPayload pool e.keys = true

/-- **What holds of a book**: it is within its cap, its clock counts the merges, no two rows have
    one stamp, and every row is sound. -/
structure Sound (w : Watched) : Prop where
  bounded : w.book.len ≤ w.book.cap
  clock : w.book.lruClock = w.merges
  rows : ∀ pool e, w.book.entries.lookup pool = some e → w.RowSound pool e
  distinct : ∀ p q e e', w.book.entries.lookup p = some e → w.book.entries.lookup q = some e' →
    e.lruStamp = e'.lruStamp → p = q

theorem sound_start (ttlMs cap : Nat) : (start ttlMs cap).Sound where
  bounded := Nat.zero_le _
  clock := rfl
  rows := fun _ _ h => nomatch h
  distinct := fun _ _ _ _ h => nomatch h

/-- A book with some of its rows gone. -/
theorem Sound.of_sub {w : Watched} (h : w.Sound) {book : PoolAddressBook}
    (hlen : book.len ≤ w.book.len) (hcap : book.cap = w.book.cap)
    (hclock : book.lruClock = w.book.lruClock)
    (hsub : ∀ pool e, book.entries.lookup pool = some e → w.book.entries.lookup pool = some e) :
    ({ w with book := book } : Watched).Sound where
  bounded := by
    rw [hcap]
    exact hlen.trans h.bounded
  clock := hclock.trans h.clock
  rows := fun pool e he =>
    let row := h.rows pool e (hsub pool e he)
    ⟨row.learned, row.last, row.stamp_le, row.complete⟩
  distinct := fun p q e e' he he' => h.distinct p q e e' (hsub p e he) (hsub q e' he')

theorem lookup_evictStale {book : PoolAddressBook} {nowMs : Nat} {pool : Pubkey} :
    (book.evictStale nowMs).1.entries.lookup pool =
      (book.entries.lookup pool).filter (book.stays nowMs pool) :=
  AList.lookup_retain _ _ _

theorem lookup_of_evictStale {book : PoolAddressBook} {nowMs : Nat} {pool : Pubkey}
    {e : BookEntry} (h : (book.evictStale nowMs).1.entries.lookup pool = some e) :
    book.entries.lookup pool = some e :=
  (AList.lookup_retain_eq_some.mp h).1

theorem sound_evictStale {w : Watched} (h : w.Sound) (nowMs : Nat) :
    (w.step (.evictStale nowMs)).Sound :=
  h.of_sub (AList.length_retain_le _ _) rfl rfl fun _ _ => lookup_of_evictStale

theorem sound_take {w : Watched} (h : w.Sound) (pool : Pubkey) : (w.step (.take pool)).Sound := by
  refine h.of_sub ?_ rfl rfl fun q e he => ?_
  · show (w.book.entries.erase pool).entries.length ≤ w.book.entries.entries.length
    exact (List.kerase_sublist _ _).length_le
  · have hne : q ≠ pool := by
      rintro rfl
      have hno : (w.book.entries.erase q).lookup q = none := AList.lookup_erase _ _
      exact absurd (hno.symm.trans he) (by simp)
    exact (AList.lookup_erase_ne hne).symm.trans he

/-- The row a merge writes. -/
def mergedEntry (w : Watched) (pool : Pubkey) (incoming : PoolLayoutKeys) (nowMs : Nat) :
    BookEntry where
  keys := match (w.book.evictStale nowMs).1.entries.lookup pool with
    | some existing => mergeLayoutKeys existing.keys incoming
    | none => incoming
  lastSeenMs := nowMs
  lruStamp := w.book.nextLruStamp

theorem lookup_insertMerged {w : Watched} {pool q : Pubkey} {incoming : PoolLayoutKeys}
    {nowMs : Nat} : (w.book.insertMerged pool incoming nowMs).entries.lookup q =
      if q = pool then some (w.mergedEntry pool incoming nowMs)
      else (w.book.evictStale nowMs).1.entries.lookup q := by
  show ((w.book.evictStale nowMs).1.entries.insert pool
    (w.mergedEntry pool incoming nowMs)).lookup q = _
  by_cases hq : q = pool
  · subst hq
    rw [if_pos rfl]
    exact AList.lookup_insert _
  · rw [if_neg hq]
    exact AList.lookup_insert_ne hq

variable {w : Watched} {pool : Pubkey} {incoming : PoolLayoutKeys} {nowMs : Nat}

theorem nextLruStamp_eq (h : w.Sound) (hclock : w.book.lruClock + 1 < 2 ^ 64) :
    w.book.nextLruStamp = w.merges + 1 := by
  unfold PoolAddressBook.nextLruStamp
  rw [Nat.mod_eq_of_lt hclock, h.clock]

/-- The stamp of a row that was there is not above the merges so far. -/
theorem stamp_le_of_evictStale (h : w.Sound) {q : Pubkey} {e : BookEntry}
    (he : (w.book.evictStale nowMs).1.entries.lookup q = some e) : e.lruStamp ≤ w.merges :=
  (h.rows q e (lookup_of_evictStale he)).stamp_le

/-- The row of a careful merge is sound. -/
theorem rowSound_merged (h : w.Sound) (hc : w.CarefulMerge pool incoming nowMs) :
    (w.merged pool incoming nowMs).RowSound pool (w.mergedEntry pool incoming nowMs) := by
  have hstamp := nextLruStamp_eq h hc.1
  have hseen : (w.merged pool incoming nowMs).seen pool =
      (if ((w.book.evictStale nowMs).1.entries.lookup pool).isSome then w.seen pool else []) ++
        [⟨w.merges + 1, nowMs, incoming⟩] := Function.update_self _ _ _
  have hlast : ∃ o, ((w.merged pool incoming nowMs).seen pool).getLast? = some o ∧
      o.index = (w.mergedEntry pool incoming nowMs).lruStamp ∧
        o.nowMs = (w.mergedEntry pool incoming nowMs).lastSeenMs := by
    refine ⟨⟨w.merges + 1, nowMs, incoming⟩, ?_, hstamp.symm, rfl⟩
    rw [hseen, List.getLast?_append, List.getLast?_singleton]
    rfl
  have hkeys : (w.mergedEntry pool incoming nowMs).keys =
      match (w.book.evictStale nowMs).1.entries.lookup pool with
      | some existing => mergeLayoutKeys existing.keys incoming
      | none => incoming := rfl
  cases hold : (w.book.evictStale nowMs).1.entries.lookup pool with
  | none =>
      rw [hold] at hseen hkeys
      have hseen' : (w.merged pool incoming nowMs).seen pool =
        [⟨w.merges + 1, nowMs, incoming⟩] := hseen
      have hkeys' : (w.mergedEntry pool incoming nowMs).keys = incoming := hkeys
      refine ⟨?_, hlast, hstamp.le, ?_⟩
      · rw [hseen', hkeys']
        exact learned_first ⟨w.merges + 1, nowMs, incoming⟩
      · rw [hseen', hkeys']
        rintro ⟨o, ho, hfull⟩
        cases List.mem_singleton.mp ho
        exact hfull
  | some existing =>
      rw [hold] at hseen hkeys
      have hseen' : (w.merged pool incoming nowMs).seen pool =
        w.seen pool ++ [⟨w.merges + 1, nowMs, incoming⟩] := hseen
      have hkeys' : (w.mergedEntry pool incoming nowMs).keys =
        mergeLayoutKeys existing.keys incoming := hkeys
      have hrow := h.rows pool existing (lookup_of_evictStale hold)
      refine ⟨?_, hlast, hstamp.le, ?_⟩
      · rw [hseen', hkeys']
        exact hrow.learned.merge ⟨w.merges + 1, nowMs, incoming⟩
      · rw [hseen', hkeys']
        rintro ⟨o, ho, hfull⟩
        rcases List.mem_append.mp ho with ho | ho
        · exact PoolLayoutKeys.v14_merge_of_existing (hrow.complete ⟨o, ho, hfull⟩)
        · cases List.mem_singleton.mp ho
          rcases hc.2 hfull existing hold with hex | ⟨hkind, hnil⟩
          · exact PoolLayoutKeys.v14_merge_of_existing hex
          · exact PoolLayoutKeys.v14_merge_of_incoming hfull hkind hnil

/-- **A careful merge keeps a book sound.** -/
theorem sound_merged (h : w.Sound) (hc : w.CarefulMerge pool incoming nowMs) :
    (w.merged pool incoming nowMs).Sound := by
  have hstamp := nextLruStamp_eq h hc.1
  have hmid {q : Pubkey} {e : BookEntry}
      (he : (w.merged pool incoming nowMs).book.entries.lookup q = some e) :
      (if q = pool then some (w.mergedEntry pool incoming nowMs)
        else (w.book.evictStale nowMs).1.entries.lookup q) = some e := by
    rw [← lookup_insertMerged]
    exact AList.lookup_of_trim he
  refine ⟨AList.length_trim_le _ _, hstamp, fun q e he => ?_, fun p q e e' he he' hsame => ?_⟩
  · have hq := hmid he
    by_cases hpool : q = pool
    · rw [if_pos hpool] at hq
      cases hq
      rw [hpool]
      exact rowSound_merged h hc
    · rw [if_neg hpool] at hq
      have hrow := h.rows q e (lookup_of_evictStale hq)
      have hseen : (w.merged pool incoming nowMs).seen q = w.seen q :=
        Function.update_of_ne hpool _ _
      refine ⟨?_, ?_, hrow.stamp_le.trans (Nat.le_succ _), ?_⟩
      · rw [hseen]
        exact hrow.learned
      · rw [hseen]
        exact hrow.last
      · rw [hseen]
        exact hrow.complete
  · have hp := hmid he
    have hq := hmid he'
    have hnew : (w.mergedEntry pool incoming nowMs).lruStamp = w.merges + 1 := hstamp
    by_cases hppool : p = pool
    · by_cases hqpool : q = pool
      · exact hppool.trans hqpool.symm
      · rw [if_pos hppool] at hp
        rw [if_neg hqpool] at hq
        cases hp
        have hle := stamp_le_of_evictStale h hq
        omega
    · by_cases hqpool : q = pool
      · rw [if_neg hppool] at hp
        rw [if_pos hqpool] at hq
        cases hq
        have hle := stamp_le_of_evictStale h hp
        omega
      · rw [if_neg hppool] at hp
        rw [if_neg hqpool] at hq
        exact h.distinct p q e e' (lookup_of_evictStale hp) (lookup_of_evictStale hq) hsame

/-- **What one careful operation preserves.** -/
theorem step_sound (op : BookOp) (hc : w.Careful op) (h : w.Sound) : (w.step op).Sound := by
  cases op with
  | merge pool incoming nowMs => exact sound_merged h hc
  | insertFromDemote pool keys nowMs => exact sound_merged h hc
  | take pool => exact sound_take h pool
  | evictStale nowMs => exact sound_evictStale h nowMs

/-! ## 6. What an eviction removes -/

/-- The number of the last merge into a row. -/
def lastMerge (w : Watched) (pool : Pubkey) : Nat :=
  ((w.seen pool).getLast?.map Observation.index).getD 0

/-- **What the evictions of a book remove**: of the rows past their time to live exactly those that
    are not complete; over the cap the incomplete rows first, and among equals the one merged least
    recently. -/
structure EvictsExactly (w : Watched) : Prop where
  ttl : ∀ nowMs pool e o, w.book.entries.lookup pool = some e →
    (w.seen pool).getLast? = some o →
      (w.book.evictStale nowMs).1.entries.lookup pool =
        if nowMs - o.nowMs > w.book.ttlMs ∧ ¬ pumpAmmV14PinPayload pool e.keys = true then none
        else some e
  cap : ∀ pool incoming nowMs, w.book.lruClock + 1 < 2 ^ 64 → ∀ p q e e',
    (w.book.insertMerged pool incoming nowMs).entries.lookup p = some e →
    (w.merged pool incoming nowMs).book.entries.lookup p = none →
    (w.merged pool incoming nowMs).book.entries.lookup q = some e' →
      (pumpAmmV14PinPayload p e.keys = true → pumpAmmV14PinPayload q e'.keys = true) ∧
      (pumpAmmV14PinPayload p e.keys = pumpAmmV14PinPayload q e'.keys →
        (w.merged pool incoming nowMs).lastMerge p < (w.merged pool incoming nowMs).lastMerge q)
  needed : ∀ pool incoming nowMs, (w.merged pool incoming nowMs).book.len =
    min (w.book.insertMerged pool incoming nowMs).len w.book.cap

/-- A row's stamp is the number of its last merge, also before the cap is applied. -/
theorem stamp_eq_lastMerge (h : w.Sound) (hclock : w.book.lruClock + 1 < 2 ^ 64) {q : Pubkey}
    {e : BookEntry} (he : (w.book.insertMerged pool incoming nowMs).entries.lookup q = some e) :
    e.lruStamp = (w.merged pool incoming nowMs).lastMerge q := by
  rw [lookup_insertMerged] at he
  unfold lastMerge
  by_cases hq : q = pool
  · rw [if_pos hq] at he
    cases he
    have hseen : (w.merged pool incoming nowMs).seen q =
        (if ((w.book.evictStale nowMs).1.entries.lookup pool).isSome then w.seen pool else []) ++
          [⟨w.merges + 1, nowMs, incoming⟩] := by
      rw [hq]
      exact Function.update_self _ _ _
    rw [hseen, List.getLast?_append, List.getLast?_singleton]
    exact nextLruStamp_eq h hclock
  · rw [if_neg hq] at he
    have hseen : (w.merged pool incoming nowMs).seen q = w.seen q := Function.update_of_ne hq _ _
    obtain ⟨o, ho, hindex, _⟩ := (h.rows q e (lookup_of_evictStale he)).last
    rw [hseen, ho]
    exact hindex.symm

/-- Two rows before the cap is applied have different stamps. -/
theorem stamp_ne (h : w.Sound) (hclock : w.book.lruClock + 1 < 2 ^ 64) {p q : Pubkey}
    {e e' : BookEntry} (hne : p ≠ q)
    (he : (w.book.insertMerged pool incoming nowMs).entries.lookup p = some e)
    (he' : (w.book.insertMerged pool incoming nowMs).entries.lookup q = some e') :
    e.lruStamp ≠ e'.lruStamp := by
  have hnew : (w.mergedEntry pool incoming nowMs).lruStamp = w.merges + 1 :=
    nextLruStamp_eq h hclock
  rw [lookup_insertMerged] at he he'
  intro hsame
  by_cases hp : p = pool
  · rw [if_pos hp] at he
    rw [if_neg fun hq => hne (hp.trans hq.symm)] at he'
    cases he
    have hle := stamp_le_of_evictStale h he'
    omega
  · rw [if_neg hp] at he
    by_cases hq : q = pool
    · rw [if_pos hq] at he'
      cases he'
      have hle := stamp_le_of_evictStale h he
      omega
    · rw [if_neg hq] at he'
      exact hne (h.distinct p q e e' (lookup_of_evictStale he) (lookup_of_evictStale he') hsame)

theorem stays_eq_false_iff {book : PoolAddressBook} {e : BookEntry} :
    book.stays nowMs pool e = false ↔
      nowMs - e.lastSeenMs > book.ttlMs ∧ ¬ pumpAmmV14PinPayload pool e.keys = true := by
  unfold PoolAddressBook.stays
  rw [Bool.or_eq_false_iff, decide_eq_false_iff_not, Nat.not_le, Bool.not_eq_true, and_comm]

theorem evictsExactly_of_sound (h : w.Sound) : w.EvictsExactly where
  ttl := by
    intro nowMs pool e o he ho
    obtain ⟨o', ho', _, hnow⟩ := (h.rows pool e he).last
    cases ho.symm.trans ho'
    rw [lookup_evictStale, he, Option.filter_some, hnow]
    by_cases hgoes : nowMs - e.lastSeenMs > w.book.ttlMs ∧ ¬ pumpAmmV14PinPayload pool e.keys = true
    · have hstays := stays_eq_false_iff.mpr hgoes
      rw [if_pos hgoes, hstays]
      rfl
    · have hstays := Bool.eq_true_of_not_eq_false (mt stays_eq_false_iff.mp hgoes)
      rw [if_neg hgoes, hstays]
      rfl
  cap := by
    intro pool incoming nowMs hclock p q e e' he hgone hleft
    have he' := AList.lookup_of_trim hleft
    have hrank : PoolAddressBook.evictPriority p e ≤ PoolAddressBook.evictPriority q e' :=
      AList.rank_le_of_trimmed he hgone hleft
    have hne : p ≠ q := by
      rintro rfl
      rw [hgone] at hleft
      cases hleft
    have hlex := Prod.Lex.le_iff.mp hrank
    refine ⟨fun hfull => ?_, fun hsame => ?_⟩
    · rcases hlex with hlt | ⟨heq, _⟩
      · have hlt' : pumpAmmV14PinPayload p e.keys < pumpAmmV14PinPayload q e'.keys := hlt
        rw [hfull] at hlt'
        exact absurd hlt' (by cases pumpAmmV14PinPayload q e'.keys <;> decide)
      · exact heq.symm.trans hfull
    · rcases hlex with hlt | ⟨_, hle⟩
      · have hlt' : pumpAmmV14PinPayload p e.keys < pumpAmmV14PinPayload q e'.keys := hlt
        exact absurd hsame hlt'.ne
      · have hle' : e.lruStamp ≤ e'.lruStamp := hle
        rw [← stamp_eq_lastMerge h hclock he, ← stamp_eq_lastMerge h hclock he']
        exact lt_of_le_of_ne hle' (stamp_ne h hclock hne he he')
  needed := fun _ _ _ => AList.length_trim _ _

end Watched

/-- **A book in a careful run**: it is within its cap, every row knows what was first observed of
    each of its addresses and is complete once a complete list was merged into it; and its
    evictions remove exactly what they should. -/
theorem book_sound (ttlMs cap : Nat) (ops : List BookOp)
    (h : Along Watched.step Watched.Careful (.start ttlMs cap) ops) :
    (foldSteps Watched.step (.start ttlMs cap) ops).Sound ∧
      (foldSteps Watched.step (.start ttlMs cap) ops).EvictsExactly := by
  have hsound : (foldSteps Watched.step (.start ttlMs cap) ops).Sound :=
    foldSteps_of_along (fun w op hc hw => Watched.step_sound op hc hw)
      (Watched.sound_start ttlMs cap) h
  exact ⟨hsound, Watched.evictsExactly_of_sound hsound⟩

/-- Seven addresses, the pool first. -/
def partialKeys : PoolLayoutKeys := .pumpAmm 2 3 4 5 [1, 2, 3, 4, 5, 6, 7]

/-- Fourteen addresses, the pool first. -/
def completeKeys : PoolLayoutKeys :=
  .pumpAmm 2 3 4 5 [1, 2, 3, 4, 5, 6, 7, 8, 9, 10, 11, 12, 13, 14]

/-- A complete list and then an incomplete one of the same pool, past the time to live. -/
theorem complete_first_sound :
    (foldSteps Watched.step (.start 100 10)
      [.merge 1 completeKeys 0, .merge 1 partialKeys 1, .evictStale 1000]).Sound :=
  (book_sound 100 10 [.merge 1 completeKeys 0, .merge 1 partialKeys 1, .evictStale 1000]
    ⟨⟨by decide, fun _ _ h => nomatch h⟩,
      ⟨by decide, fun h => absurd h (by decide)⟩, trivial, trivial⟩).1

/-- **A partial list sticks**: the complete one merged after it is dropped, and the row goes with
    its time to live. -/
theorem partial_list_sticks :
    pumpAmmV14PinPayload 1 completeKeys = true ∧
      ((foldSteps Watched.step (.start 100 10)
          [.merge 1 partialKeys 0, .merge 1 completeKeys 1]).book.entries.lookup 1).map
        (fun e => pumpAmmV14PinPayload 1 e.keys) = some false ∧
      (foldSteps Watched.step (.start 100 10)
        [.merge 1 partialKeys 0, .merge 1 completeKeys 1, .evictStale 1000]).book.len = 0 := by
  decide +kernel

end IronCrab.Execution
