/-
  File:      IronCrab/Storage/TokenRace.lean
  Subject:   `add_available_token_balance` AGAINST ANOTHER THREAD, critical section by critical
             section.

  Each critical section of the manager is one atomic step (`Section`), each operation a list of
  sections (`TokenOp.sections`). The add is the only operation with a value that outlives its
  section: it reads the balance in one section and writes the sum in a later one, so each thread
  carries a local `current`.

  * `run_effect` -- a write that still finds the balance that was read acts like the whole add;
  * `comm_cleanupExpiredCapital` -- the add commutes with the expiry that opens every lock
    attempt, as long as the mint's total stays in range;
  * **`add_serializable`** -- when every write finds the balance that was read, the outcome of
    any interleaving is the outcome of the add placed between two operations of the other thread;
  * `add_loses_update` -- two adds of 5 and 7 that both read first credit 7 in all, which no
    sequential order does.
-/
import IronCrab.Storage.Conservation
import Mathlib.Data.List.Permutation

namespace IronCrab

/-! ## 1. Sections -/

/-- One critical section of the manager. -/
inductive Section where
  | readToken (mint : Mint)
  | writeToken (mint : Mint) (additionalRaw : UInt64)
  | setToken (mint : Mint) (amountRaw : UInt64)
  | cleanupCapital (now : Instant)
  | cleanupResources (now : Instant)
  | acquireCapital (holder : LockHolder) (solLamports : UInt64) (tokens : TokenMap)
      (createdAt : Instant)
  | releaseCapital (intentId : IntentId)
  | releaseResources (intentId : IntentId)

/-- The two threads. -/
inductive Thread where
  | adder
  | other
  deriving DecidableEq

/-- The manager and each thread's local `current`. -/
structure Threads where
  m : LockManager
  current : Thread → UInt64

/-- What a section does to the manager when nobody stands between a read and its write. -/
def Section.effect (m : LockManager) : Section → LockManager
  | readToken _ => m
  | writeToken mint k => m.addAvailableTokenBalance mint k
  | setToken mint amount => m.setAvailableTokenBalance mint amount
  | cleanupCapital now => m.cleanupExpiredCapital now
  | cleanupResources now => m.cleanupExpiredResources now
  -- the WSOL flag is read between the cleanup and the write locks; nothing here changes it
  | acquireCapital holder sol tokens createdAt =>
      (m.acquireCapital holder sol tokens none (m.buyReservesWsol sol tokens) createdAt).2
  | releaseCapital id => m.releaseCapitalLockRestoreTokens id true
  | releaseResources id => m.releaseResourceLocksForIntent id

/-- One section of one thread. -/
def runSection (s : Threads) : Thread × Section → Threads
  | (t, .readToken mint) =>
      { s with
        current := fun u => if u = t then s.m.availableTokenBalance mint else s.current u }
  | (t, .writeToken mint k) =>
      { s with m := s.m.insertAvailableToken mint (Word.satAdd (s.current t) k) }
  | (_, x) => { s with m := x.effect s.m }

/-- The operations of the two threads. -/
inductive TokenOp where
  | addAvailableTokenBalance (mint : Mint) (additionalRaw : UInt64)
  | setAvailableTokenBalance (mint : Mint) (amountRaw : UInt64)
  | tryLockCapital (holder : LockHolder) (solLamports : UInt64) (tokens : TokenMap)
      (now createdAt : Instant)
  | releaseLocks (intentId : IntentId)

namespace TokenOp

/-- The sections of an operation, in order. -/
def sections : TokenOp → List Section
  | addAvailableTokenBalance mint k => [.readToken mint, .writeToken mint k]
  | setAvailableTokenBalance mint amount => [.setToken mint amount]
  | tryLockCapital holder sol tokens now createdAt =>
      [.cleanupCapital now, .cleanupResources now, .acquireCapital holder sol tokens createdAt]
  | releaseLocks id => [.releaseCapital id, .releaseResources id]

/-- The operation with nobody in between. -/
def apply (m : LockManager) : TokenOp → LockManager
  | addAvailableTokenBalance mint k => m.addAvailableTokenBalance mint k
  | setAvailableTokenBalance mint amount => m.setAvailableTokenBalance mint amount
  | tryLockCapital holder sol tokens now createdAt =>
      (m.tryLockCapital holder sol tokens now createdAt).2
  | releaseLocks id => m.releaseLocks id

/-- The sections of an operation, one after another, are the operation. -/
theorem fold_sections (m : LockManager) (op : TokenOp) :
    Machine.foldSteps Section.effect m op.sections = op.apply m := by
  cases op <;> rfl

theorem fold_flatMap_sections (ops : List TokenOp) (m : LockManager) :
    Machine.foldSteps Section.effect m (ops.flatMap sections) =
      Machine.foldSteps apply m ops := by
  induction ops generalizing m with
  | nil => rfl
  | cons op ops ih =>
      rw [List.flatMap_cons, Machine.foldSteps_append, fold_sections, ih]
      rfl

end TokenOp

/-! ## 2. The condition -/

/-- The mint's total leaves room for `k`, and a write finds the balance that its thread read. -/
structure WriteFinds (mint : Mint) (k : UInt64) (s : Threads) (x : Thread × Section) : Prop where
  room : (s.m.availableTokenBalance mint).toNat + s.m.lockedTokens mint + k.toNat < Word.size
  unchanged : ∀ mint' k', x.2 = .writeToken mint' k' →
    s.current x.1 = s.m.availableTokenBalance mint'

/-- **A write that finds the balance that was read acts like the whole add.** -/
theorem run_effect {mint : Mint} {k : UInt64} {s : Threads} {x : Thread × Section}
    (h : WriteFinds mint k s x) : (runSection s x).m = x.2.effect s.m := by
  obtain ⟨t, sec⟩ := x
  cases sec with
  | writeToken mint' k' =>
      have hread : s.current t = s.m.availableTokenBalance mint' := h.unchanged mint' k' rfl
      show s.m.insertAvailableToken mint' (Word.satAdd (s.current t) k') = _
      rw [hread]
      rfl
  | _ => rfl

/-- There is room for `k` before each of the sections. -/
def Room (mint : Mint) (k : UInt64) (m : LockManager) (_ : Section) : Prop :=
  m.total (.token mint) + k.toNat < Word.size

/-- Along such an interleaving the threads' locals do not matter. -/
theorem fold_effect {mint : Mint} {k : UInt64} {zs : List (Thread × Section)} {s : Threads}
    (h : Machine.Along runSection (WriteFinds mint k) s zs) :
    (Machine.foldSteps runSection s zs).m =
        Machine.foldSteps Section.effect s.m (zs.map Prod.snd) ∧
      Machine.Along Section.effect (Room mint k) s.m (zs.map Prod.snd) := by
  induction zs generalizing s with
  | nil => exact ⟨rfl, trivial⟩
  | cons z zs ih =>
      obtain ⟨hz, hrest⟩ := h
      obtain ⟨hfold, halong⟩ := ih hrest
      rw [run_effect hz] at hfold halong
      exact ⟨hfold, hz.room, halong⟩

/-! ## 3. The add among the sections of a lock attempt -/

namespace LockManager

/-- **The add commutes with a credit** that leaves room for it. -/
theorem comm_creditToken (m : LockManager) (mint : Mint) (k : UInt64) (mint' : Mint) (x : UInt64)
    (h : mint' = mint → (m.availableTokenBalance mint).toNat + x.toNat + k.toNat < Word.size) :
    (m.addAvailableTokenBalance mint k).creditToken mint' x =
      (m.creditToken mint' x).addAvailableTokenBalance mint k := by
  have hself : (m.addAvailableTokenBalance mint k).availableTokenBalance mint =
      Word.satAdd (m.availableTokenBalance mint) k := Finmap.getOr_insert_self 0 mint _ _
  by_cases he : mint' = mint
  · subst he
    have hroom := h rfl
    have hk : Word.satAdd (m.availableTokenBalance mint') k = m.availableTokenBalance mint' + k :=
      Word.satAdd_eq_add (by omega)
    have hkn : (m.availableTokenBalance mint' + k).toNat =
        (m.availableTokenBalance mint').toNat + k.toNat := Word.toNat_add_exact (by omega)
    have hxn : (m.availableTokenBalance mint' + x).toNat =
        (m.availableTokenBalance mint').toNat + x.toNat := Word.toNat_add_exact (by omega)
    have hx : Word.satAdd (m.availableTokenBalance mint' + x) k =
        m.availableTokenBalance mint' + x + k := Word.satAdd_eq_add (by omega)
    have hcomm : m.availableTokenBalance mint' + k + x =
        m.availableTokenBalance mint' + x + k := by
      rw [UInt64.add_assoc, UInt64.add_comm k x, ← UInt64.add_assoc]
    have hno : ¬ Word.AddOverflows (m.availableTokenBalance mint' + k) x :=
      Word.not_addOverflows (by omega)
    have hno' : ¬ Word.AddOverflows (m.availableTokenBalance mint') x :=
      Word.not_addOverflows (by omega)
    unfold creditToken
    rw [hself, hk]
    unfold addAvailableTokenBalance insertAvailableToken
    simp only [decide_eq_false hno, decide_eq_false hno']
    have hbal : ({ m with
        availableTokens := m.availableTokens.insert mint' (m.availableTokenBalance mint' + x)
        overflowed := m.overflowed || false } : LockManager).availableTokenBalance mint' =
        m.availableTokenBalance mint' + x := Finmap.getOr_insert_self 0 mint' _ _
    rw [hbal, hx, Finmap.insert_insert, Finmap.insert_insert, hcomm]
  · have hne : (m.addAvailableTokenBalance mint k).availableTokenBalance mint' =
        m.availableTokenBalance mint' := Finmap.getOr_insert_ne 0 he _ _
    have hne' : (m.creditToken mint' x).availableTokenBalance mint =
        m.availableTokenBalance mint :=
      availableTokenBalance_creditToken_ne m (fun e => he e.symm) x
    unfold addAvailableTokenBalance insertAvailableToken at hne ⊢
    rw [hne']
    unfold creditToken
    rw [hne]
    simp only
    rw [Finmap.insert_insert_of_ne _ (fun e => he e.symm)]

theorem comm_credits {l : List (Sigma fun _ : Mint => UInt64)} (hd : l.NodupKeys)
    (m : LockManager) (mint : Mint) (k : UInt64)
    (h : (m.availableTokenBalance mint).toNat + (entryAmount mint l).toNat + k.toNat <
      Word.size) :
    l.foldl (fun m e => m.creditToken e.1 e.2) (m.addAvailableTokenBalance mint k) =
      (l.foldl (fun m e => m.creditToken e.1 e.2) m).addAvailableTokenBalance mint k := by
  induction l generalizing m with
  | nil => rfl
  | cons e l ih =>
      obtain ⟨mint', x⟩ := e
      obtain ⟨hk, hd'⟩ := List.nodupKeys_cons.mp hd
      rw [List.foldl_cons, List.foldl_cons]
      by_cases he : mint' = mint
      · subst he
        rw [entryAmount_cons_self] at h
        rw [comm_creditToken m mint' k mint' x (fun _ => h), ih hd']
        rw [availableTokenBalance_creditToken_self, entryAmount_of_notMem hk,
          Word.toNat_add_exact (by omega)]
        exact h
      · have hne : mint ≠ mint' := fun e => he e.symm
        rw [entryAmount_cons_ne hne] at h
        rw [comm_creditToken m mint k mint' x (fun e => absurd e he), ih hd']
        rw [availableTokenBalance_creditToken_ne m hne]
        exact h

/-- The add commutes with a release that gives everything back. -/
theorem comm_release (m : LockManager) (mint : Mint) (k : UInt64) (id : IntentId)
    (h : m.total (.token mint) + k.toNat < Word.size) :
    (m.addAvailableTokenBalance mint k).releaseCapitalLockRestoreTokens id true =
      (m.releaseCapitalLockRestoreTokens id true).addAvailableTokenBalance mint k := by
  unfold releaseCapitalLockRestoreTokens
  have hlocks : (m.addAvailableTokenBalance mint k).capitalLocks = m.capitalLocks := rfl
  rw [hlocks]
  cases hl : m.capitalLocks.lookup id with
  | none => rfl
  | some lock =>
      have hpart : lock.tokenPart mint ≤ m.locked (.token mint) :=
        AList.le_total (CapitalLock.tokenPart mint) hl
      have hsum : m.total (.token mint) =
          (m.availableTokenBalance mint).toNat + m.locked (.token mint) := rfl
      have hroom : (m.availableTokenBalance mint).toNat +
          (entryAmount mint lock.tokens.entries).toNat + k.toNat < Word.size := by
        have he : (entryAmount mint lock.tokens.entries).toNat = lock.tokenPart mint := rfl
        omega
      show restoreLock _ lock true = addAvailableTokenBalance (restoreLock _ lock true) mint k
      rw [restoreLock_true, restoreLock_true, ← comm_credits lock.tokens.nodupKeys]
      · unfold restoreLamports
        cases lock.reservesTradingWsol <;> rfl
      · rw [availableTokenBalance_restoreLamports]
        exact hroom

/-- **The add commutes with the expiry of capital locks.** -/
theorem comm_cleanupExpiredCapital (m : LockManager) (mint : Mint) (k : UInt64) (now : Instant)
    (h : m.total (.token mint) + k.toNat < Word.size) :
    (m.addAvailableTokenBalance mint k).cleanupExpiredCapital now =
      (m.cleanupExpiredCapital now).addAvailableTokenBalance mint k := by
  have hfold : ∀ (ks : List IntentId) (m : LockManager),
      m.total (.token mint) + k.toNat < Word.size →
      ks.foldl (fun m id => m.releaseCapitalLockRestoreTokens id true)
          (m.addAvailableTokenBalance mint k) =
        (ks.foldl (fun m id => m.releaseCapitalLockRestoreTokens id true) m
          ).addAvailableTokenBalance mint k := by
    intro ks
    induction ks with
    | nil => exact fun m _ => rfl
    | cons id ks ih =>
        intro m hm
        have hrel := total_release m id true (.token mint) (by omega)
        rw [keptBack_restoring, Nat.add_zero] at hrel
        rw [List.foldl_cons, List.foldl_cons, comm_release m mint k id hm,
          ih _ (by rw [hrel]; exact hm)]
  exact hfold _ m h

end LockManager

/-! ## 4. Serialization -/

/-- **An add that falls inside an operation of the other thread** could as well have come right
    before it or right after it. -/
theorem add_inside (m : LockManager) (mint : Mint) (k : UInt64) (op : TokenOp)
    {a b : List Section} (hab : op.sections = a ++ b) (ha : a ≠ []) (hb : b ≠ [])
    (hroom : m.total (.token mint) + k.toNat < Word.size) :
    Machine.foldSteps Section.effect
        ((Machine.foldSteps Section.effect m a).addAvailableTokenBalance mint k) b =
      op.apply (m.addAvailableTokenBalance mint k) ∨
    Machine.foldSteps Section.effect
        ((Machine.foldSteps Section.effect m a).addAvailableTokenBalance mint k) b =
      (op.apply m).addAvailableTokenBalance mint k := by
  cases op with
  | addAvailableTokenBalance mint' k' =>
      obtain ⟨rfl, rfl⟩ := Machine.cut_two hab ha hb
      exact .inl rfl
  | setAvailableTokenBalance mint' amount =>
      cases a with
      | nil => exact absurd rfl ha
      | cons x a =>
          have hnil := (List.cons.inj hab).2
          exact absurd (List.append_eq_nil_iff.mp hnil.symm).2 hb
  | releaseLocks id =>
      obtain ⟨rfl, rfl⟩ := Machine.cut_two hab ha hb
      exact .inr rfl
  | tryLockCapital holder sol tokens now createdAt =>
      have hclean := LockManager.comm_cleanupExpiredCapital m mint k now hroom
      have happly : (TokenOp.tryLockCapital holder sol tokens now createdAt).apply
          (m.addAvailableTokenBalance mint k) =
          Section.effect (((m.cleanupExpiredCapital now).addAvailableTokenBalance mint k
            ).cleanupExpiredResources now) (.acquireCapital holder sol tokens createdAt) := by
        rw [← hclean]
        rfl
      rcases Machine.cut_three hab ha hb with ⟨rfl, rfl⟩ | ⟨rfl, rfl⟩
      · exact .inl happly.symm
      · exact .inl happly.symm

/-- A read does not matter for the room. -/
theorem along_skip_read {mint mint' : Mint} {k : UInt64} {m : LockManager}
    {l l' : List Section}
    (h : Machine.Along Section.effect (Room mint k) m (l ++ .readToken mint' :: l')) :
    Machine.Along Section.effect (Room mint k) m (l ++ l') := by
  obtain ⟨hl, hl'⟩ := Machine.along_append h
  exact Machine.along_append_intro hl hl'.2

/-- **SERIALIZATION OF THE ADD.** Every interleaving of `add_available_token_balance(mint, k)`
    with a sequence of operations, in which each write finds the balance that its thread read and
    the mint's total leaves room for `k`, ends as if the add had been called between two of the
    operations. -/
theorem add_serializable (s : Threads) (mint : Mint) (k : UInt64) (ops : List TokenOp)
    (zs : List (Thread × Section))
    (hzs : Machine.Merge
      ((TokenOp.addAvailableTokenBalance mint k).sections.map (Prod.mk Thread.adder))
      ((ops.flatMap TokenOp.sections).map (Prod.mk Thread.other)) zs)
    (hgood : Machine.Along runSection (WriteFinds mint k) s zs) :
    ∃ ops₁ ops₂, ops = ops₁ ++ ops₂ ∧
      (Machine.foldSteps runSection s zs).m =
        Machine.foldSteps TokenOp.apply s.m
          (ops₁ ++ [.addAvailableTokenBalance mint k] ++ ops₂) := by
  obtain ⟨hfold, hroom⟩ := fold_effect hgood
  -- the read stands after `y₁`, the write after `y₁ ++ y₂`
  obtain ⟨y₁, y', z', hy, hz, hm⟩ := hzs.split_left
  obtain ⟨y₂, y₃, z'', hy', hz', hm'⟩ := hm.split_left
  have hz'' := hm'.eq_right
  have hflat : ops.flatMap TokenOp.sections =
      (y₁ ++ y₂).map Prod.snd ++ y₃.map Prod.snd := by
    have h := congrArg (List.map Prod.snd) hy
    rw [hy', List.map_map] at h
    rw [← List.map_append, List.append_assoc, ← h]
    exact (List.map_id _).symm
  have hrun : Machine.foldSteps Section.effect s.m (zs.map Prod.snd) =
      Machine.foldSteps Section.effect
        ((Machine.foldSteps Section.effect s.m ((y₁ ++ y₂).map Prod.snd)
          ).addAvailableTokenBalance mint k) (y₃.map Prod.snd) := by
    rw [hz, hz', hz'']
    simp only [List.map_append, List.map_cons, Machine.foldSteps_append, Machine.foldSteps_cons]
    rfl
  rw [hfold, hrun]
  obtain ⟨ops₁, ops₂, hops, hcut⟩ := Machine.flatMap_cut hflat
  rcases hcut with ⟨hl, hl'⟩ | ⟨op, rest, a, b, ho, hab, ha, hb, hl, hl'⟩
  · refine ⟨ops₁, ops₂, hops, ?_⟩
    rw [hl, hl', TokenOp.fold_flatMap_sections, TokenOp.fold_flatMap_sections,
      Machine.foldSteps_append, Machine.foldSteps_append]
    rfl
  · have hat : (Machine.foldSteps TokenOp.apply s.m ops₁).total (.token mint) + k.toNat <
        Word.size := by
      have hsnd : zs.map Prod.snd = y₁.map Prod.snd ++ Section.readToken mint ::
          (y₂.map Prod.snd ++ Section.writeToken mint k :: y₃.map Prod.snd) := by
        rw [hz, hz', hz'']
        simp only [List.map_append, List.map_cons]
      rw [hsnd] at hroom
      have hskip := along_skip_read hroom
      rw [← List.append_assoc, ← List.map_append, hl, List.append_assoc] at hskip
      have hinside := (Machine.along_append hskip).2
      rw [TokenOp.fold_flatMap_sections] at hinside
      cases a with
      | nil => exact absurd rfl ha
      | cons x a => exact hinside.1
    rw [hl, hl', Machine.foldSteps_append, TokenOp.fold_flatMap_sections,
      Machine.foldSteps_append, TokenOp.fold_flatMap_sections]
    rcases add_inside _ mint k op hab ha hb hat with h | h
    · refine ⟨ops₁, op :: rest, by rw [hops, ho], ?_⟩
      rw [h, Machine.foldSteps_append, Machine.foldSteps_append]
      rfl
    · refine ⟨ops₁ ++ [op], rest, by rw [hops, ho, List.append_assoc]; rfl, ?_⟩
      rw [h, Machine.foldSteps_append, Machine.foldSteps_append, Machine.foldSteps_append]
      rfl

/-- A manager with no tokens, and both locals at zero. -/
def idleThreads : Threads := ⟨LockManager.new 0, fun _ => 0⟩

/-- `add_serializable` for an add inside a lock attempt: its two sections stand between the two
    halves of the expiry. -/
theorem add_serializable_inside_attempt :
    ∃ ops₁ ops₂, [TokenOp.setAvailableTokenBalance "mint" 10,
        .tryLockCapital (.new "sell") 0 (AList.singleton "mint" 4) 0 0] = ops₁ ++ ops₂ ∧
      (Machine.foldSteps runSection idleThreads
        [(.other, .setToken "mint" 10), (.other, .cleanupCapital 0), (.adder, .readToken "mint"),
          (.adder, .writeToken "mint" 5), (.other, .cleanupResources 0),
          (.other, .acquireCapital (.new "sell") 0 (AList.singleton "mint" 4) 0)]).m =
        Machine.foldSteps TokenOp.apply idleThreads.m
          (ops₁ ++ [.addAvailableTokenBalance "mint" 5] ++ ops₂) := by
  refine add_serializable idleThreads "mint" 5 _ _ ?_ ?_
  · exact .right _ (.right _ (.left _ (.left _ (.right _ (.right _ .nil)))))
  · refine ⟨⟨by decide, ?_⟩, ⟨by decide, ?_⟩, ⟨by decide, ?_⟩, ⟨by decide, ?_⟩,
      ⟨by decide, ?_⟩, ⟨by decide, ?_⟩, trivial⟩
    all_goals intro mint' k' h
    all_goals cases h
    rfl

/-- **TWO ADDS THAT BOTH READ FIRST LOSE ONE**: 5 and 7 added to nothing leave 7, and no order of
    the two adds does. -/
theorem add_loses_update :
    ¬ ∀ (s : Threads) (mint : Mint) (k : UInt64) (ops : List TokenOp)
      (zs : List (Thread × Section)),
      Machine.Merge
        ((TokenOp.addAvailableTokenBalance mint k).sections.map (Prod.mk Thread.adder))
        ((ops.flatMap TokenOp.sections).map (Prod.mk Thread.other)) zs →
      ∃ seq : List TokenOp, seq.Perm (.addAvailableTokenBalance mint k :: ops) ∧
        (Machine.foldSteps runSection s zs).m.availableTokenBalance mint =
          (Machine.foldSteps TokenOp.apply s.m seq).availableTokenBalance mint ∧
        (Machine.foldSteps runSection s zs).m.lockedTokens mint =
          (Machine.foldSteps TokenOp.apply s.m seq).lockedTokens mint := by
  intro h
  obtain ⟨seq, hperm, hbal, _⟩ := h idleThreads "mint" 5 [.addAvailableTokenBalance "mint" 7]
    [(.adder, .readToken "mint"), (.other, .readToken "mint"), (.adder, .writeToken "mint" 5),
      (.other, .writeToken "mint" 7)]
    (.left _ (.right _ (.left _ (.right _ .nil))))
  rcases List.perm_pair.mp hperm with rfl | rfl
  · exact absurd hbal (by decide)
  · exact absurd hbal (by decide)

end IronCrab
