/-
  File:      IronCrab/Lib/Overwrite.lean
  Subject:   EDITS OF A TABLE, AND WHAT A SEQUENCE OF THEM COMES TO. Nothing here names a program.

  An edit clears the table, drops a key or puts a value at it. What a sequence of edits comes to at
  one key is its `outcome` there: the key is untouched, gone, or held with a value. A value put
  over another one is joined with it; `overwrite` is the join that forgets the old value.

  * `outcome_rekey` -- keys that are written as texts, each in one spelling;
  * `has_of_overwrite`, `has_foldSteps_batch` -- joins that keep a property of the value;
  * `Board.view_update` -- a store that reconciles, unpins and pins does what the batch comes to;
  * `Accum.Sums.outcome_merged` -- two maps, one of what is held and one of what is gone, collapse
    a sequence of batches into one;
  * **`Feed.view_run`**, **`Feed.outcome_isMerge`** -- the updates one by one, and merged.
-/
import IronCrab.Lib.Machine
import IronCrab.Lib.SortedMap

namespace Overwrite

open Machine (foldSteps Along)

/-! ## 1. Edits and outcomes -/

/-- One edit of a table with keys `K` and values `V`. -/
inductive Edit (K V : Type) where
  | clear
  | drop (k : K)
  | put (k : K) (v : V)
  deriving DecidableEq

/-- What edits came to at one key. -/
inductive Outcome (V : Type) where
  | untouched
  | gone
  | held (v : V)
  deriving DecidableEq

namespace Outcome

variable {V : Type}

/-- The entry that was `old` before. -/
def onto (old : Option V) : Outcome V → Option V
  | untouched => old
  | gone => none
  | held v => some v

/-- The outcome that leaves exactly this entry. -/
def ofEntry : Option V → Outcome V
  | none => gone
  | some v => held v

@[simp] theorem onto_ofEntry (entry old : Option V) : (ofEntry entry).onto old = entry := by
  cases entry <;> rfl

/-- The value that is put where this is the outcome so far. -/
def joined (join : V → V → V) (v : V) : Outcome V → V
  | held w => join w v
  | _ => v

/-- The outcome without its value. -/
def kind : Outcome V → Outcome Unit
  | untouched => untouched
  | gone => gone
  | held _ => held ()

end Outcome

/-- The join that forgets the old value. -/
def overwrite {V : Type} (_ v : V) : V := v

@[simp] theorem Outcome.joined_overwrite {V : Type} (v : V) (o : Outcome V) :
    o.joined overwrite v = v := by
  cases o <;> rfl

section Outcomes

variable {K V : Type} [DecidableEq K]

namespace Edit

/-- The outcome at `k` after one more edit. -/
def next (join : V → V → V) (k : K) (o : Outcome V) : Edit K V → Outcome V
  | clear => .gone
  | drop k' => if k' = k then .gone else o
  | put k' v => if k' = k then .held (o.joined join v) else o

/-- The edit is about this key. -/
def Names (k : K) : Edit K V → Prop
  | clear => False
  | drop k' => k' = k
  | put k' _ => k' = k

/-- The edit at the key that `f` reads; none when it reads no key. -/
def rekey {K' : Type} (f : K' → Option K) : Edit K' V → Option (Edit K V)
  | clear => some clear
  | drop k => (f k).map drop
  | put k v => (f k).map fun k' => put k' v

end Edit

/-- **What the edits come to at `k`.** -/
def outcome (join : V → V → V) (es : List (Edit K V)) (k : K) : Outcome V :=
  foldSteps (Edit.next join k) .untouched es

variable {join : V → V → V} {es es' : List (Edit K V)} {k : K}

@[simp] theorem outcome_nil : outcome join ([] : List (Edit K V)) k = .untouched := rfl

theorem outcome_append :
    outcome join (es ++ es') k = foldSteps (Edit.next join k) (outcome join es k) es' :=
  Machine.foldSteps_append ..

theorem outcome_snoc (e : Edit K V) :
    outcome join (es ++ [e]) k = e.next join k (outcome join es k) :=
  outcome_append

/-- The join has no say in whether a value is held. -/
theorem kind_outcome (join join' : V → V → V) (es : List (Edit K V)) (k : K) :
    (outcome join es k).kind = (outcome join' es k).kind := by
  induction es using List.reverseRecOn with
  | nil => rfl
  | append_singleton es e ih =>
      rw [outcome_snoc, outcome_snoc]
      cases e with
      | clear => rfl
      | drop k' =>
          by_cases hk : k' = k
          · simp only [Edit.next, if_pos hk]
          · simpa only [Edit.next, if_neg hk] using ih
      | put k' v =>
          by_cases hk : k' = k
          · simp only [Edit.next, if_pos hk, Outcome.kind]
          · simpa only [Edit.next, if_neg hk] using ih

/-- Overwriting edits act one after the other. -/
theorem onto_append (es es' : List (Edit K V)) (k : K) (old : Option V) :
    (outcome overwrite (es ++ es') k).onto old =
      (outcome overwrite es' k).onto ((outcome overwrite es k).onto old) := by
  induction es' using List.reverseRecOn with
  | nil => simp [Outcome.onto]
  | append_singleton es' e ih =>
      rw [← List.append_assoc, outcome_snoc, outcome_snoc]
      cases e with
      | clear => rfl
      | drop k' =>
          by_cases hk : k' = k
          · simp only [Edit.next, if_pos hk, Outcome.onto]
          · simpa only [Edit.next, if_neg hk] using ih
      | put k' v =>
          by_cases hk : k' = k
          · simp only [Edit.next, if_pos hk, Outcome.joined_overwrite, Outcome.onto]
          · simpa only [Edit.next, if_neg hk] using ih

/-! ## 2. The value that is held -/

/-- The key is held with a value that has the property. -/
def Outcome.Has {V : Type} (P : V → Prop) (o : Outcome V) : Prop := ∃ v, o = .held v ∧ P v

/-- Only a key that some edit names is held. -/
theorem named_of_held {v : V} (h : outcome join es k = .held v) : ∃ e ∈ es, e.Names k := by
  induction es using List.reverseRecOn generalizing v with
  | nil => cases h
  | append_singleton es e ih =>
      rw [outcome_snoc] at h
      have last : e.Names k → ∃ e' ∈ es ++ [e], e'.Names k := fun hn =>
        ⟨e, List.mem_append_right _ (List.mem_singleton_self e), hn⟩
      have before : outcome join es k = .held v → ∃ e' ∈ es ++ [e], e'.Names k := fun h => by
        obtain ⟨e', he', hn⟩ := ih h
        exact ⟨e', List.mem_append_left _ he', hn⟩
      cases e with
      | clear => cases h
      | drop k' =>
          by_cases hk : k' = k
          · exact last hk
          · exact before (by rwa [Edit.next, if_neg hk] at h)
      | put k' w =>
          by_cases hk : k' = k
          · exact last hk
          · exact before (by rwa [Edit.next, if_neg hk] at h)

/-- A join that keeps what the new value has: what the last value has, the joined one has. -/
theorem has_of_overwrite {P : V → Prop} (hjoin : ∀ w v, P v → P (join w v))
    (h : (outcome overwrite es k).Has P) : (outcome join es k).Has P := by
  induction es using List.reverseRecOn with
  | nil => obtain ⟨v, hv, _⟩ := h; cases hv
  | append_singleton es e ih =>
      rw [outcome_snoc] at h ⊢
      cases e with
      | clear => obtain ⟨v, hv, _⟩ := h; cases hv
      | drop k' =>
          by_cases hk : k' = k
          · simpa only [Edit.next, if_pos hk] using h
          · rw [Edit.next, if_neg hk] at h ⊢
            exact ih h
      | put k' v =>
          by_cases hk : k' = k
          · rw [Edit.next, if_pos hk] at h ⊢
            obtain ⟨v', hv, hP⟩ := h
            rw [Outcome.joined_overwrite, Outcome.held.injEq] at hv
            subst hv
            refine ⟨_, rfl, ?_⟩
            cases outcome join es k with
            | held w => exact hjoin w v hP
            | gone => exact hP
            | untouched => exact hP
          · rw [Edit.next, if_neg hk] at h ⊢
            exact ih h

/-- The join has no say in whether there is an entry. -/
theorem isSome_onto_of_kind {V : Type} {o o' : Outcome V} (h : o.kind = o'.kind) (old : Option V) :
    (o.onto old).isSome = (o'.onto old).isSome := by
  cases o <;> cases o' <;> first | rfl | cases h

/-- The entry has the property when the overwritten one has it or the joined outcome does. -/
theorem onto_has_iff {V : Type} {P : V → Prop} {o o' : Outcome V} (h : o.kind = o'.kind)
    (himp : o'.Has P → o.Has P) (old : Option V) :
    (∃ v, o.onto old = some v ∧ P v) ↔ (∃ v, o'.onto old = some v ∧ P v) ∨ o.Has P := by
  constructor
  · rintro ⟨v, hv, hP⟩
    cases o with
    | untouched =>
        cases o' with
        | untouched => exact .inl ⟨v, hv, hP⟩
        | gone => cases h
        | held w => cases h
    | gone => cases hv
    | held w => exact .inr ⟨v, congrArg Outcome.held (Option.some.inj hv), hP⟩
  · rintro (⟨v, hv, hP⟩ | ⟨v, rfl, hP⟩)
    · cases o' with
      | untouched =>
          cases o with
          | untouched => exact ⟨v, hv, hP⟩
          | gone => cases h
          | held w => cases h
      | gone => cases hv
      | held w =>
          obtain ⟨v', rfl, hP'⟩ := himp ⟨v, congrArg Outcome.held (Option.some.inj hv), hP⟩
          exact ⟨v', rfl, hP'⟩
    · exact ⟨v, rfl, hP⟩

/-- A join that has what either value has: after puts, what was put or was there before has it. -/
theorem has_foldSteps_puts {P : V → Prop} (hjoin : ∀ w v, P (join w v) ↔ P w ∨ P v)
    {puts : List (K × V)} (o : Outcome V) :
    (foldSteps (Edit.next join k) o (puts.map fun p => .put p.1 p.2)).Has P ↔
      (∃ v, (k, v) ∈ puts ∧ P v) ∨ o.Has P := by
  induction puts generalizing o with
  | nil => simp
  | cons p puts ih =>
      obtain ⟨k', v⟩ := p
      rw [List.map_cons, Machine.foldSteps_cons, ih]
      by_cases hk : k' = k
      · subst hk
        have hput : (Outcome.held (o.joined join v)).Has P ↔ P v ∨ o.Has P := by
          constructor
          · rintro ⟨w, hw, hP⟩
            cases hw
            cases o with
            | held w' => exact ((hjoin w' v).mp hP).elim (fun h => .inr ⟨w', rfl, h⟩) .inl
            | gone => exact .inl hP
            | untouched => exact .inl hP
          · intro h
            refine ⟨_, rfl, ?_⟩
            cases o with
            | held w' =>
                refine (hjoin w' v).mpr (h.symm.imp_left ?_)
                rintro ⟨w, hw, hP⟩
                cases hw
                exact hP
            | gone => exact h.resolve_right fun ⟨w, hw, _⟩ => nomatch hw
            | untouched => exact h.resolve_right fun ⟨w, hw, _⟩ => nomatch hw
        rw [Edit.next, if_pos rfl, hput, ← or_assoc]
        refine or_congr_left ⟨?_, ?_⟩
        · rintro (⟨w, hw, hP⟩ | hP)
          · exact ⟨w, List.mem_cons_of_mem _ hw, hP⟩
          · exact ⟨v, List.mem_cons_self, hP⟩
        · rintro ⟨w, hw, hP⟩
          rcases List.mem_cons.mp hw with heq | hw
          · cases heq
            exact .inr hP
          · exact .inl ⟨w, hw, hP⟩
      · rw [Edit.next, if_neg hk]
        refine or_congr_left ⟨?_, ?_⟩
        · rintro ⟨w, hw, hP⟩
          exact ⟨w, List.mem_cons_of_mem _ hw, hP⟩
        · rintro ⟨w, hw, hP⟩
          rcases List.mem_cons.mp hw with heq | hw
          · cases heq
            exact absurd rfl hk
          · exact ⟨w, hw, hP⟩

end Outcomes

/-! ## 3. Keys that are written as texts -/

section Rekey

variable {K K' V : Type} [DecidableEq K] [DecidableEq K'] {f : K' → Option K}
  {join : V → V → V} {es : List (Edit K' V)} {k : K}

/-- No two of these texts are read as the same key. -/
def OneSpelling (f : K' → Option K) (names : List K') : Prop :=
  ∀ s ∈ names, ∀ t ∈ names, ∀ k, f s = some k → f t = some k → s = t

omit [DecidableEq K] [DecidableEq K'] in
theorem oneSpelling_of_eq {names : List K'}
    (h : ∀ s ∈ names, ∀ t ∈ names, f s = f t → f s = none ∨ s = t) : OneSpelling f names := by
  intro s hs t ht k hsk htk
  refine (h s hs t ht (hsk.trans htk.symm)).resolve_left fun hn => ?_
  rw [hn] at hsk
  cases hsk

/-- The edits at the keys that `f` reads. -/
def rekey (f : K' → Option K) (es : List (Edit K' V)) : List (Edit K V) :=
  es.filterMap (Edit.rekey f)

omit [DecidableEq K] [DecidableEq K'] in
theorem rekey_append (es' : List (Edit K' V)) :
    rekey f (es ++ es') = rekey f es ++ rekey f es' := List.filterMap_append

omit [DecidableEq K'] in
theorem outcome_rekey_snoc (e : Edit K' V) :
    outcome join (rekey f (es ++ [e])) k =
      ((e.rekey f).elim (outcome join (rekey f es) k) fun e' =>
        e'.next join k (outcome join (rekey f es) k)) := by
  rw [rekey_append]
  cases he : e.rekey f with
  | none =>
      rw [show rekey f [e] = [] from List.filterMap_cons_none he, List.append_nil]
      rfl
  | some e' =>
      rw [show rekey f [e] = [e'] from List.filterMap_cons_some he, outcome_snoc]
      rfl

/-- **A key in its one spelling** fares as its text does. -/
theorem outcome_rekey {s : K'} (hs : f s = some k)
    (huniq : ∀ e ∈ es, ∀ t, e.Names t → f t = some k → t = s) :
    outcome join (rekey f es) k = outcome join es s := by
  induction es using List.reverseRecOn with
  | nil => rfl
  | append_singleton es e ih =>
      have ih := ih fun e he => huniq e (List.mem_append_left _ he)
      have hu := huniq e (List.mem_append_right _ (List.mem_singleton_self e))
      rw [outcome_rekey_snoc, outcome_snoc, ih]
      -- a key that the edit names is `k` exactly when its text is `s`
      have hiff : ∀ t k', e.Names t → f t = some k' → (k' = k ↔ t = s) := by
        intro t k' ht hf
        constructor
        · rintro rfl
          exact hu t ht hf
        · rintro rfl
          exact Option.some.inj (hf.symm.trans hs)
      cases e with
      | clear => rfl
      | drop t =>
          cases hf : f t with
          | none =>
              have hne : t ≠ s := fun h => by rw [h, hs] at hf; cases hf
              simp only [Edit.rekey, hf, Option.map_none, Option.elim_none, Edit.next, if_neg hne]
          | some k' =>
              simp only [Edit.rekey, hf, Option.map_some, Option.elim_some, Edit.next,
                hiff t k' rfl hf]
      | put t v =>
          cases hf : f t with
          | none =>
              have hne : t ≠ s := fun h => by rw [h, hs] at hf; cases hf
              simp only [Edit.rekey, hf, Option.map_none, Option.elim_none, Edit.next, if_neg hne]
          | some k' =>
              simp only [Edit.rekey, hf, Option.map_some, Option.elim_some, Edit.next,
                hiff t k' rfl hf]

omit [DecidableEq K'] in
/-- A key that no text is read as fares as the whole table does. -/
theorem outcome_rekey_absent (h : ∀ e ∈ es, ∀ t, e.Names t → f t ≠ some k) :
    outcome join (rekey f es) k =
      if es.any (fun e => e matches .clear) then .gone else .untouched := by
  induction es using List.reverseRecOn with
  | nil => rfl
  | append_singleton es e ih =>
      have hu := h e (List.mem_append_right _ (List.mem_singleton_self e))
      rw [outcome_rekey_snoc, ih fun e he => h e (List.mem_append_left _ he), List.any_append]
      cases e with
      | clear => simp [Edit.rekey, Edit.next]
      | drop t =>
          cases hf : f t with
          | none => simp [Edit.rekey, hf]
          | some k' =>
              have hne : k' ≠ k := fun h' => hu t rfl (by rw [hf, h'])
              simp [Edit.rekey, hf, Edit.next, hne]
      | put t v =>
          cases hf : f t with
          | none => simp [Edit.rekey, hf]
          | some k' =>
              have hne : k' ≠ k := fun h' => hu t rfl (by rw [hf, h'])
              simp [Edit.rekey, hf, Edit.next, hne]

end Rekey

/-! ## 4. Batches -/

section Batch

variable {K V : Type} [DecidableEq K]

/-- A batch: clear or not, then drop, then put. -/
def batch (wipe : Bool) (drops : List K) (puts : List (K × V)) : List (Edit K V) :=
  (if wipe then [.clear] else []) ++ (drops.map .drop ++ puts.map fun p => .put p.1 p.2)

variable {join : V → V → V} {wipe : Bool} {drops : List K} {puts : List (K × V)} {k : K}
  {o : Outcome V}

theorem foldSteps_drops (o : Outcome V) (drops : List K) :
    foldSteps (Edit.next join k) o (drops.map .drop) = if k ∈ drops then .gone else o := by
  induction drops generalizing o with
  | nil => simp
  | cons k' drops ih =>
      rw [List.map_cons, Machine.foldSteps_cons, ih]
      by_cases hk : k' = k
      · subst hk
        simp [Edit.next]
      · simp [Edit.next, hk, Ne.symm hk]

theorem foldSteps_puts_of_notMem (h : k ∉ puts.map Prod.fst) :
    foldSteps (Edit.next join k) o (puts.map fun p => .put p.1 p.2) = o := by
  induction puts generalizing o with
  | nil => rfl
  | cons p puts ih =>
      rw [List.map_cons, List.mem_cons, not_or] at h
      rw [List.map_cons, Machine.foldSteps_cons, ih h.2]
      simp only [Edit.next, if_neg (Ne.symm h.1)]

theorem foldSteps_puts_of_mem {v : V} (hnd : (puts.map Prod.fst).Nodup) (h : (k, v) ∈ puts) :
    foldSteps (Edit.next join k) o (puts.map fun p => .put p.1 p.2) =
      .held (o.joined join v) := by
  induction puts generalizing o with
  | nil => cases h
  | cons p puts ih =>
      rw [List.map_cons, List.nodup_cons] at hnd
      rw [List.map_cons, Machine.foldSteps_cons]
      rcases List.mem_cons.mp h with rfl | h
      · rw [foldSteps_puts_of_notMem hnd.1]
        simp only [Edit.next, if_true]
      · have hne : p.1 ≠ k := fun h' => hnd.1 (h' ▸ List.mem_map.mpr ⟨(k, v), h, rfl⟩)
        rw [ih hnd.2 h]
        simp only [Edit.next, if_neg hne]

/-- A batch after other edits. -/
theorem foldSteps_batch (o : Outcome V) :
    foldSteps (Edit.next join k) o (batch wipe drops puts) =
      foldSteps (Edit.next join k) (if wipe ∨ k ∈ drops then .gone else o)
        (puts.map fun p => .put p.1 p.2) := by
  unfold batch
  rw [Machine.foldSteps_append, Machine.foldSteps_append, foldSteps_drops]
  congr 1
  cases wipe with
  | true => by_cases hk : k ∈ drops <;> simp [hk, Edit.next]
  | false => simp

/-- A batch puts a value with the property, or keeps one. -/
theorem has_foldSteps_batch {P : V → Prop} (hjoin : ∀ w v, P (join w v) ↔ P w ∨ P v)
    (o : Outcome V) :
    (foldSteps (Edit.next join k) o (batch wipe drops puts)).Has P ↔
      (∃ v, (k, v) ∈ puts ∧ P v) ∨ o.Has P ∧ ¬ (wipe ∨ k ∈ drops) := by
  rw [foldSteps_batch, has_foldSteps_puts hjoin]
  by_cases hw : wipe = true ∨ k ∈ drops
  · rw [if_pos hw]
    refine or_congr_right ⟨?_, fun h => absurd hw h.2⟩
    rintro ⟨v, hv, _⟩
    cases hv
  · rw [if_neg hw]
    exact or_congr_right ⟨fun h => ⟨h, hw⟩, And.left⟩

/-- Where a key is put, what it was before is overwritten. -/
theorem foldSteps_puts_overwrite (h : k ∈ puts.map Prod.fst) (o' : Outcome V) :
    foldSteps (Edit.next overwrite k) o (puts.map fun p => .put p.1 p.2) =
      foldSteps (Edit.next overwrite k) o' (puts.map fun p => .put p.1 p.2) := by
  induction puts generalizing o o' with
  | nil => cases h
  | cons p puts ih =>
      rw [List.map_cons, Machine.foldSteps_cons, Machine.foldSteps_cons]
      by_cases hk : p.1 = k
      · simp only [Edit.next, if_pos hk, Outcome.joined_overwrite]
      · rw [List.map_cons, List.mem_cons] at h
        simp only [Edit.next, if_neg hk]
        exact ih (h.resolve_left fun h' => hk h'.symm) o'

/-- What is put in a batch that does not drop it and does not put it twice. -/
theorem outcome_batch_held {v : V} (hnd : (puts.map Prod.fst).Nodup) (h : (k, v) ∈ puts) :
    outcome join (batch wipe drops puts) k = .held v := by
  show foldSteps _ _ _ = _
  rw [foldSteps_batch, foldSteps_puts_of_mem hnd h]
  by_cases hg : wipe = true ∨ k ∈ drops
  · rw [if_pos hg]
    rfl
  · rw [if_neg hg]
    rfl

/-- What is not put. -/
theorem outcome_batch_rest (h : k ∉ puts.map Prod.fst) :
    outcome join (batch wipe drops puts) k = if wipe ∨ k ∈ drops then .gone else .untouched := by
  show foldSteps _ _ _ = _
  rw [foldSteps_batch, foldSteps_puts_of_notMem h]

omit [DecidableEq K] in
theorem any_clear_batch :
    (batch wipe drops puts).any (fun e => e matches .clear) = wipe := by
  cases wipe <;> simp [batch]

omit [DecidableEq K] in
theorem names_of_mem_batch {e : Edit K V} (he : e ∈ batch wipe drops puts) (hk : e.Names k) :
    k ∈ drops ∨ k ∈ puts.map Prod.fst := by
  unfold batch at he
  rcases List.mem_append.mp he with he | he
  · cases wipe with
    | true =>
        rw [if_pos rfl, List.mem_singleton] at he
        subst he
        exact hk.elim
    | false => cases he
  · rcases List.mem_append.mp he with he | he
    · obtain ⟨k', hm, rfl⟩ := List.mem_map.mp he
      exact .inl ((show k' = k from hk) ▸ hm)
    · obtain ⟨p, hm, rfl⟩ := List.mem_map.mp he
      exact .inr (List.mem_map.mpr ⟨p, hm, hk⟩)

omit [DecidableEq K] in
/-- The batch at the keys that are read. -/
theorem rekey_batch {K' : Type} (f : K' → Option K) (drops : List K') (puts : List (K' × V)) :
    rekey f (batch wipe drops puts) =
      batch wipe (drops.filterMap f) (puts.filterMap fun p => (f p.1).map fun k => (k, p.2)) := by
  have hd : rekey f (drops.map (.drop : K' → Edit K' V)) =
      (drops.filterMap f).map .drop := by
    rw [rekey, List.filterMap_map, List.map_filterMap]
    rfl
  have hp : rekey f (puts.map fun p => Edit.put p.1 p.2) =
      (puts.filterMap fun p => (f p.1).map fun k => (k, p.2)).map fun p => Edit.put p.1 p.2 := by
    rw [rekey, List.filterMap_map, List.map_filterMap]
    congr 1
    funext p
    simp only [Function.comp_apply, Edit.rekey, Option.map_map]
    rfl
  unfold batch
  rw [rekey_append, rekey_append, hd, hp]
  cases wipe <;> rfl

end Batch

/-! ## 5. Stores that batches are applied to -/

/-- A store that pins values at keys and remembers the target of its last reconcile. -/
structure Board (S K V : Type) [DecidableEq K] where
  pinned : S → List K
  pin : S → K → V → S
  unpin : S → K → S
  lastTarget : S → Option (Finset K)
  remember : S → Finset K → S
  view : S → K → Option V
  mem_pinned : ∀ s k, k ∈ pinned s ↔ (view s k).isSome
  view_pin : ∀ s k v k', view (pin s k v) k' = if k' = k then some v else view s k'
  view_unpin : ∀ s k k', view (unpin s k) k' = if k' = k then none else view s k'
  view_remember : ∀ s target, view (remember s target) = view s

namespace Board

variable {S K V : Type} [DecidableEq K] (b : Board S K V)

/-- Unpins what is not in the target, unless the target is the one of the last reconcile. -/
def reconcile (s : S) (target : Finset K) : S :=
  if b.lastTarget s = some target then s
  else ((b.pinned s).filter fun k => decide (k ∉ target)).foldl b.unpin (b.remember s target)

/-- Reconciles, unpins, pins. -/
def update (s : S) (wipe : Bool) (drops : List K) (puts : List (K × V)) : S :=
  let s := if wipe then b.reconcile s (puts.map Prod.fst).toFinset else s
  puts.foldl (fun s p => b.pin s p.1 p.2) (drops.foldl b.unpin s)

/-- Where a reconcile is left out because its target is the last one, it has nothing to do. -/
def Settled (s : S) (wipe : Bool) (target : Finset K) : Prop :=
  wipe = true → b.lastTarget s = some target → ∀ k ∈ b.pinned s, k ∈ target

variable {b}

theorem view_foldl_unpin (s : S) (drops : List K) (k : K) :
    b.view (drops.foldl b.unpin s) k = if k ∈ drops then none else b.view s k := by
  induction drops generalizing s with
  | nil => simp
  | cons k' drops ih =>
      rw [List.foldl_cons, ih, b.view_unpin]
      by_cases hk : k = k'
      · simp [hk]
      · simp [hk]

theorem view_foldl_pin {s : S} {puts : List (K × V)} {k : K} {o : Outcome V} {old : Option V}
    (h : b.view s k = o.onto old) :
    b.view (puts.foldl (fun s p => b.pin s p.1 p.2) s) k =
      (foldSteps (Edit.next overwrite k) o (puts.map fun p => .put p.1 p.2)).onto old := by
  induction puts generalizing s o with
  | nil => exact h
  | cons p puts ih =>
      rw [List.foldl_cons, List.map_cons, Machine.foldSteps_cons]
      refine ih ?_
      rw [b.view_pin]
      by_cases hk : k = p.1
      · simp only [Edit.next, if_pos hk, if_pos hk.symm, Outcome.joined_overwrite, Outcome.onto]
      · simp only [Edit.next, if_neg hk, if_neg (Ne.symm hk), h]

/-- A reconcile leaves what is in the target. -/
theorem view_reconcile {s : S} {target : Finset K}
    (h : b.lastTarget s = some target → ∀ k ∈ b.pinned s, k ∈ target) (k : K) :
    b.view (b.reconcile s target) k = if k ∈ target then b.view s k else none := by
  have hnone : k ∉ b.pinned s → b.view s k = none := fun hk => by
    rw [b.mem_pinned, Bool.not_eq_true, Option.isSome_eq_false_iff, Option.isNone_iff_eq_none] at hk
    exact hk
  unfold reconcile
  by_cases hl : b.lastTarget s = some target
  · rw [if_pos hl]
    by_cases hk : k ∈ target
    · rw [if_pos hk]
    · rw [if_neg hk, hnone fun hp => hk (h hl k hp)]
  · rw [if_neg hl, view_foldl_unpin, b.view_remember]
    by_cases hk : k ∈ target
    · simp [hk]
    · by_cases hp : k ∈ b.pinned s
      · simp [hk, hp]
      · simp [hk, hp, hnone hp]

/-- **An update does to the store what its batch comes to.** -/
theorem view_update {s : S} {wipe : Bool} {drops : List K} {puts : List (K × V)}
    (h : b.Settled s wipe (puts.map Prod.fst).toFinset) (k : K) :
    b.view (b.update s wipe drops puts) k =
      (outcome overwrite (batch wipe drops puts) k).onto (b.view s k) := by
  show _ = Outcome.onto _ (foldSteps _ _ _)
  rw [foldSteps_batch]
  by_cases hk : k ∈ puts.map Prod.fst
  · -- what is put does not depend on what was there
    rw [foldSteps_puts_overwrite hk (.ofEntry (b.view _ k))]
    exact view_foldl_pin (Outcome.onto_ofEntry ..).symm
  · refine view_foldl_pin ?_
    rw [view_foldl_unpin]
    cases wipe with
    | false =>
        by_cases hd : k ∈ drops
        · simp [hd, Outcome.onto]
        · simp [hd, Outcome.onto]
    | true =>
        have ht : k ∉ (puts.map Prod.fst).toFinset := by rwa [List.mem_toFinset]
        rw [if_pos rfl, view_reconcile (h rfl), if_neg ht, ite_self, if_pos (.inl rfl)]
        rfl

end Board

/-! ## 6. Two maps that collapse a sequence of batches -/

/-- What the entries of a batch say: the key and the value of what is put, the key of what is
    dropped, and how an entry is combined with the one that is there. -/
structure Reading (K A R V : Type) where
  keyOf : A → K
  value : A → V
  droppedKey : R → K
  combine : A → A → A
  join : V → V → V
  key_combine : ∀ existing a, keyOf (combine existing a) = keyOf a
  value_combine : ∀ existing a, value (combine existing a) = join (value existing) (value a)

namespace Reading

variable {K A R V : Type}

/-- The edits of one batch of entries. -/
def edits (rd : Reading K A R V) (wipe : Bool) (removed : List R) (active : List A) :
    List (Edit K V) :=
  batch wipe (removed.map rd.droppedKey) (active.map fun a => (rd.keyOf a, rd.value a))

end Reading

/-- The accumulators: what is held, what is gone, and whether the table was cleared. -/
structure Accum (K A R : Type) [LinearOrder K] where
  held : SortedMap K A
  gone : SortedMap K R
  wiped : Bool

namespace Accum

variable {K A R V : Type} [LinearOrder K]

def new : Accum K A R := ⟨.empty, .empty, false⟩

/-- Clearing forgets what is held; what was held outside the target is not gone either. -/
def restart (acc : Accum K A R) (target : List K) : Accum K A R :=
  let outside := acc.held.keys.filter fun k => decide (k ∉ target)
  ⟨.empty, outside.foldl (fun gone k => gone.erase k) acc.gone, true⟩

def remove (rd : Reading K A R V) (acc : Accum K A R) (r : R) : Accum K A R :=
  ⟨acc.held.erase (rd.droppedKey r), acc.gone.insert (rd.droppedKey r) r, acc.wiped⟩

def activate (rd : Reading K A R V) (acc : Accum K A R) (a : A) : Accum K A R :=
  let entry := match acc.held.lookup (rd.keyOf a) with
    | some existing => rd.combine existing a
    | none => a
  ⟨acc.held.insert (rd.keyOf a) entry, acc.gone.erase (rd.keyOf a), acc.wiped⟩

/-- One batch. -/
def step (rd : Reading K A R V) (acc : Accum K A R) (wipe : Bool) (removed : List R)
    (active : List A) : Accum K A R :=
  let acc := if wipe then acc.restart (active.map rd.keyOf) else acc
  active.foldl (activate rd) (removed.foldl (remove rd) acc)

/-- What is gone and not held. -/
def goneOnly (acc : Accum K A R) : SortedMap K R :=
  acc.held.keys.foldl (fun gone k => gone.erase k) acc.gone

/-- What the accumulators hold at `k` against what the edits came to there. -/
def Agrees (rd : Reading K A R V) (acc : Accum K A R) (k : K) : Outcome V → Prop
  | .held v => ∃ a, acc.held.lookup k = some a ∧ rd.keyOf a = k ∧ rd.value a = v
  | .gone => acc.held.lookup k = none ∧ (acc.wiped = false → (acc.gone.lookup k).isSome)
  | .untouched => acc.held.lookup k = none ∧ acc.gone.lookup k = none ∧ acc.wiped = false

/-- The accumulators sum up these edits at `k`. -/
structure SumsAt (rd : Reading K A R V) (acc : Accum K A R) (es : List (Edit K V)) (k : K) :
    Prop where
  agrees : acc.Agrees rd k (outcome rd.join es k)
  goneKey : ∀ r, acc.gone.lookup k = some r → rd.droppedKey r = k
  named : (acc.gone.lookup k).isSome → ∃ e ∈ es, e.Names k

/-- **The accumulators sum up these edits.** -/
structure Sums (rd : Reading K A R V) (acc : Accum K A R) (es : List (Edit K V)) : Prop where
  at_key : ∀ k, SumsAt rd acc es k
  clear : es.any (fun e => e matches .clear) = acc.wiped

variable {rd : Reading K A R V} {acc acc' : Accum K A R} {es : List (Edit K V)} {k : K}

theorem lookup_foldl_erase (gone : SortedMap K R) (ks : List K) (k : K) :
    (ks.foldl (fun gone k => gone.erase k) gone).lookup k =
      if k ∈ ks then none else gone.lookup k := by
  induction ks generalizing gone with
  | nil => simp
  | cons k' ks ih =>
      rw [List.foldl_cons, ih, SortedMap.lookup_erase]
      by_cases hk : k = k'
      · simp [hk]
      · simp [hk]

theorem Agrees.frame {o : Outcome V} (h : acc.Agrees rd k o)
    (hheld : acc'.held.lookup k = acc.held.lookup k)
    (hgone : acc'.gone.lookup k = acc.gone.lookup k) (hw : acc'.wiped = acc.wiped) :
    acc'.Agrees rd k o := by
  cases o with
  | held v => simpa only [Agrees, hheld] using h
  | gone => simpa only [Agrees, hheld, hgone, hw] using h
  | untouched => simpa only [Agrees, hheld, hgone, hw] using h

/-- A key that an edit does not name stays summed up. -/
theorem SumsAt.frame (h : SumsAt rd acc es k) {e : Edit K V}
    (hheld : acc'.held.lookup k = acc.held.lookup k)
    (hgone : acc'.gone.lookup k = acc.gone.lookup k) (hw : acc'.wiped = acc.wiped)
    (ho : e.next rd.join k (outcome rd.join es k) = outcome rd.join es k) :
    SumsAt rd acc' (es ++ [e]) k where
  agrees := by
    rw [outcome_snoc, ho]
    exact h.agrees.frame hheld hgone hw
  goneKey := by rw [hgone]; exact h.goneKey
  named := fun hs => by
    rw [hgone] at hs
    obtain ⟨e', he, hn⟩ := h.named hs
    exact ⟨e', List.mem_append_left _ he, hn⟩

theorem sums_new : Sums rd new [] where
  at_key := fun _ => ⟨⟨rfl, rfl, rfl⟩, (fun _ h => nomatch h), (fun h => nomatch h)⟩
  clear := rfl

theorem Sums.restart (h : Sums rd acc es) (target : List K) :
    Sums rd (acc.restart target) (es ++ [.clear]) where
  at_key := fun k => by
    have hgone : ∀ r, (acc.restart target).gone.lookup k = some r →
        acc.gone.lookup k = some r := by
      intro r hr
      rw [Accum.restart, lookup_foldl_erase] at hr
      split at hr
      · cases hr
      · exact hr
    refine ⟨?_, fun r hr => (h.at_key k).goneKey r (hgone r hr), fun hs => ?_⟩
    · rw [outcome_snoc]
      exact ⟨rfl, fun hw => nomatch hw⟩
    · obtain ⟨r, hr⟩ := Option.isSome_iff_exists.mp hs
      obtain ⟨e, he, hn⟩ := (h.at_key k).named (by rw [hgone r hr]; rfl)
      exact ⟨e, List.mem_append_left _ he, hn⟩
  clear := by rw [List.any_append]; exact Bool.or_true _

theorem Sums.remove (h : Sums rd acc es) (r : R) :
    Sums rd (acc.remove rd r) (es ++ [.drop (rd.droppedKey r)]) where
  at_key := fun k => by
    by_cases hk : rd.droppedKey r = k
    · have hgone : (acc.remove rd r).gone.lookup k = some r := by
        rw [← hk]
        exact SortedMap.lookup_insert_self ..
      refine ⟨?_, fun r' hr' => ?_, fun _ => ?_⟩
      · rw [outcome_snoc, Edit.next, if_pos hk]
        refine ⟨?_, fun _ => by rw [hgone]; rfl⟩
        rw [← hk]
        exact SortedMap.lookup_erase_self ..
      · rw [hgone] at hr'
        cases hr'
        exact hk
      · exact ⟨_, List.mem_append_right _ (List.mem_singleton_self _), hk⟩
    · exact (h.at_key k).frame (SortedMap.lookup_erase_ne _ (Ne.symm hk))
        (SortedMap.lookup_insert_ne _ (Ne.symm hk) _) rfl (by rw [Edit.next, if_neg hk])
  clear := by
    rw [List.any_append, h.clear]
    exact Bool.or_false _

theorem Sums.activate (h : Sums rd acc es) (a : A) :
    Sums rd (acc.activate rd a) (es ++ [.put (rd.keyOf a) (rd.value a)]) where
  at_key := fun k => by
    by_cases hk : rd.keyOf a = k
    · have hgone : (acc.activate rd a).gone.lookup k = none := by
        rw [← hk]
        exact SortedMap.lookup_erase_self ..
      refine ⟨?_, fun r hr => ?_, fun hs => ?_⟩
      · subst hk
        have ha := (h.at_key (rd.keyOf a)).agrees
        rw [outcome_snoc, Edit.next, if_pos rfl]
        refine ⟨_, SortedMap.lookup_insert_self .., ?_⟩
        cases ho : outcome rd.join es (rd.keyOf a) with
        | held w =>
            rw [ho] at ha
            obtain ⟨existing, hl, _, rfl⟩ := ha
            rw [hl]
            exact ⟨rd.key_combine .., rd.value_combine ..⟩
        | gone =>
            rw [ho] at ha
            rw [ha.1]
            exact ⟨rfl, rfl⟩
        | untouched =>
            rw [ho] at ha
            rw [ha.1]
            exact ⟨rfl, rfl⟩
      · rw [hgone] at hr
        cases hr
      · rw [hgone] at hs
        cases hs
    · exact (h.at_key k).frame (SortedMap.lookup_insert_ne _ (Ne.symm hk) _)
        (SortedMap.lookup_erase_ne _ (Ne.symm hk)) rfl (by rw [Edit.next, if_neg hk])
  clear := by
    rw [List.any_append, h.clear]
    exact Bool.or_false _

theorem Sums.removeAll (h : Sums rd acc es) (removed : List R) :
    Sums rd (removed.foldl (Accum.remove rd) acc)
      (es ++ removed.map fun r => .drop (rd.droppedKey r)) := by
  induction removed generalizing acc es with
  | nil => simpa using h
  | cons r removed ih => simpa [List.append_assoc] using ih (h.remove r)

theorem Sums.activateAll (h : Sums rd acc es) (active : List A) :
    Sums rd (active.foldl (Accum.activate rd) acc)
      (es ++ active.map fun a => .put (rd.keyOf a) (rd.value a)) := by
  induction active generalizing acc es with
  | nil => simpa using h
  | cons a active ih => simpa [List.append_assoc] using ih (h.activate a)

/-- **One batch.** -/
theorem Sums.step (h : Sums rd acc es) (wipe : Bool) (removed : List R) (active : List A) :
    Sums rd (acc.step rd wipe removed active) (es ++ rd.edits wipe removed active) := by
  have hstart : Sums rd (if wipe then acc.restart (active.map rd.keyOf) else acc)
      (es ++ if wipe then [.clear] else []) := by
    cases wipe with
    | true => exact h.restart _
    | false => simpa using h
  have hall := (hstart.removeAll removed).activateAll active
  rw [List.append_assoc, List.append_assoc] at hall
  simp only [Reading.edits, batch, List.map_map]
  exact hall

/-! ### The batch of the accumulators -/

/-- What the batch of the accumulators names was named by an edit. -/
theorem Sums.named (h : Sums rd acc es)
    (hs : (acc.held.lookup k).isSome ∨ (acc.gone.lookup k).isSome) : ∃ e ∈ es, e.Names k := by
  rcases hs with hs | hs
  · have ha := (h.at_key k).agrees
    cases ho : outcome rd.join es k with
    | held v => exact named_of_held ho
    | gone =>
        rw [ho] at ha
        rw [ha.1] at hs
        cases hs
    | untouched =>
        rw [ho] at ha
        rw [ha.1] at hs
        cases hs
  · exact (h.at_key k).named hs

theorem Sums.keyOf_held (h : Sums rd acc es) {a : A} (ha : acc.held.lookup k = some a) :
    rd.keyOf a = k := by
  have hag := (h.at_key k).agrees
  cases ho : outcome rd.join es k with
  | held v =>
      rw [ho] at hag
      obtain ⟨a', hl, hkey, -⟩ := hag
      rw [ha] at hl
      cases hl
      exact hkey
  | gone =>
      rw [ho] at hag
      rw [hag.1] at ha
      cases ha
  | untouched =>
      rw [ho] at hag
      rw [hag.1] at ha
      cases ha

/-- The entries that are held stand under their own keys. -/
theorem Sums.map_keyOf_values (h : Sums rd acc es) :
    acc.held.values.map rd.keyOf = acc.held.keys := by
  show (acc.held.entries.map Prod.snd).map rd.keyOf = acc.held.entries.map Prod.fst
  rw [List.map_map]
  refine List.map_congr_left fun p hp => ?_
  exact h.keyOf_held (SortedMap.mem_entries.mp hp)

theorem Sums.mem_droppedKeys (h : Sums rd acc es) :
    k ∈ acc.goneOnly.values.map rd.droppedKey ↔
      acc.held.lookup k = none ∧ (acc.gone.lookup k).isSome := by
  have hlookup : ∀ k', acc.goneOnly.lookup k' =
      if k' ∈ acc.held.keys then none else acc.gone.lookup k' :=
    fun k' => lookup_foldl_erase ..
  constructor
  · intro hk
    obtain ⟨r, hr, rfl⟩ := List.mem_map.mp hk
    obtain ⟨p, hp, rfl⟩ := List.mem_map.mp hr
    have hl := SortedMap.mem_entries.mp hp
    rw [hlookup] at hl
    split at hl
    · cases hl
    · next hn =>
        rw [(h.at_key p.1).goneKey p.2 hl, hl]
        exact ⟨SortedMap.lookup_eq_none.mpr hn, rfl⟩
  · rintro ⟨hn, hs⟩
    obtain ⟨r, hr⟩ := Option.isSome_iff_exists.mp hs
    have hl : acc.goneOnly.lookup k = some r := by
      rw [hlookup, if_neg (SortedMap.lookup_eq_none.mp hn), hr]
    exact List.mem_map.mpr ⟨r, List.mem_map.mpr ⟨(k, r), SortedMap.mem_entries.mpr hl, rfl⟩,
      (h.at_key k).goneKey r hr⟩

/-- **The batch of the accumulators comes to what the edits come to**, in whatever order its
    entries stand and whatever join it is applied with. -/
theorem Sums.outcome_merged (h : Sums rd acc es) {removed : List R} {active : List A}
    (hr : removed.Perm acc.goneOnly.values) (ha : active.Perm acc.held.values)
    (join : V → V → V) (k : K) :
    outcome join (rd.edits acc.wiped removed active) k = outcome rd.join es k := by
  have hmem : k ∈ removed.map rd.droppedKey ↔
      acc.held.lookup k = none ∧ (acc.gone.lookup k).isSome :=
    (hr.map _).mem_iff.trans h.mem_droppedKeys
  have hputs : (active.map fun a => (rd.keyOf a, rd.value a)).map Prod.fst =
      active.map rd.keyOf := by
    rw [List.map_map]
    rfl
  have hkeys : (active.map rd.keyOf).Perm acc.held.keys := by
    rw [← h.map_keyOf_values]
    exact ha.map _
  have hag := (h.at_key k).agrees
  cases ho : outcome rd.join es k with
  | held v =>
      rw [ho] at hag
      obtain ⟨a, hl, rfl, rfl⟩ := hag
      refine outcome_batch_held ?_ ?_
      · rw [hputs]
        exact hkeys.nodup_iff.mpr acc.held.nodup_keys
      · refine List.mem_map.mpr ⟨a, ha.mem_iff.mpr ?_, rfl⟩
        exact List.mem_map.mpr ⟨(_, a), SortedMap.mem_entries.mpr hl, rfl⟩
  | gone =>
      rw [ho] at hag
      have hn : k ∉ (active.map fun a => (rd.keyOf a, rd.value a)).map Prod.fst := by
        rw [hputs, hkeys.mem_iff]
        exact SortedMap.lookup_eq_none.mp hag.1
      refine (outcome_batch_rest hn).trans (if_pos ?_)
      cases hw : acc.wiped with
      | true => exact .inl rfl
      | false => exact .inr (hmem.mpr ⟨hag.1, hag.2 hw⟩)
  | untouched =>
      rw [ho] at hag
      have hn : k ∉ (active.map fun a => (rd.keyOf a, rd.value a)).map Prod.fst := by
        rw [hputs, hkeys.mem_iff]
        exact SortedMap.lookup_eq_none.mp hag.1
      refine (outcome_batch_rest hn).trans (if_neg ?_)
      rintro (hw | hd)
      · rw [hag.2.2] at hw
        cases hw
      · have hs := (hmem.mp hd).2
        rw [hag.2.1] at hs
        cases hs

end Accum

/-! ## 7. Updates that are applied one by one, or merged -/

/-- How an update is read: as a batch of entries whose keys are texts. -/
structure Feed (U A R K' K V : Type) where
  wipe : U → Bool
  removed : U → List R
  active : U → List A
  reading : Reading K' A R V
  read : K' → Option K

namespace Feed

variable {U A R K' K V S : Type} (fd : Feed U A R K' K V)

/-- The edits of a sequence of updates. -/
def edits (us : List U) : List (Edit K' V) :=
  us.flatMap fun u => fd.reading.edits (fd.wipe u) (fd.removed u) (fd.active u)

/-- The texts in a sequence of updates. -/
def names (us : List U) : List K' :=
  us.flatMap fun u => (fd.removed u).map fd.reading.droppedKey ++ (fd.active u).map fd.reading.keyOf

/-- What an update drops; what cannot be read is skipped. -/
def drops (u : U) : List K := (fd.removed u).filterMap fun r => fd.read (fd.reading.droppedKey r)

/-- What an update puts; what cannot be read is skipped. -/
def puts (u : U) : List (K × V) :=
  (fd.active u).filterMap fun a =>
    (fd.read (fd.reading.keyOf a)).map fun k => (k, fd.reading.value a)

section Reads

variable {fd}

theorem rekey_edits (u : U) :
    rekey fd.read (fd.reading.edits (fd.wipe u) (fd.removed u) (fd.active u)) =
      batch (fd.wipe u) (fd.drops u) (fd.puts u) := by
  rw [Reading.edits, rekey_batch, List.filterMap_map, List.filterMap_map]
  rfl

theorem edits_snoc (us : List U) (u : U) :
    fd.edits (us ++ [u]) =
      fd.edits us ++ fd.reading.edits (fd.wipe u) (fd.removed u) (fd.active u) := by
  rw [edits, List.flatMap_append, List.flatMap_singleton]
  rfl

theorem edits_singleton (u : U) :
    fd.edits [u] = fd.reading.edits (fd.wipe u) (fd.removed u) (fd.active u) :=
  List.flatMap_singleton ..

/-- What an edit names stands in the updates. -/
theorem mem_names_of_edit {us : List U} {e : Edit K' V} (he : e ∈ fd.edits us) {s : K'}
    (hn : e.Names s) : s ∈ fd.names us := by
  obtain ⟨u, hu, he⟩ := List.mem_flatMap.mp he
  refine List.mem_flatMap.mpr ⟨u, hu, List.mem_append.mpr ?_⟩
  have hnames := names_of_mem_batch he hn
  rwa [List.map_map] at hnames

/-- What is put, as keys. -/
theorem map_fst_puts (u : U) :
    (fd.puts u).map Prod.fst = (fd.active u).filterMap fun a => fd.read (fd.reading.keyOf a) := by
  rw [puts, List.map_filterMap]
  congr 1
  funext a
  rw [Option.map_map]
  exact Option.map_id'

end Reads

section Stores

variable [DecidableEq K]

/-- Applies one update to a store. -/
def apply (b : Board S K V) (s : S) (u : U) : S := b.update s (fd.wipe u) (fd.drops u) (fd.puts u)

/-- Entry by entry: what cannot be read is skipped. -/
theorem apply_eq (b : Board S K V) (s : S) (u : U) :
    fd.apply b s u =
      (fd.active u).foldl
        (fun s a => (fd.read (fd.reading.keyOf a)).elim s fun k => b.pin s k (fd.reading.value a))
        ((fd.removed u).foldl
          (fun s r => (fd.read (fd.reading.droppedKey r)).elim s fun k => b.unpin s k)
          (if fd.wipe u then
            b.reconcile s ((fd.active u).filterMap fun a => fd.read (fd.reading.keyOf a)).toFinset
          else s)) := by
  rw [apply, Board.update, map_fst_puts, drops, puts, List.foldl_filterMap, List.foldl_filterMap]
  congr 1
  · funext s a
    cases fd.read (fd.reading.keyOf a) <;> rfl
  · congr 1
    funext s r
    cases fd.read (fd.reading.droppedKey r) <;> rfl

/-- A reconcile that this update leaves out has nothing to do. -/
def Settled (b : Board S K V) (s : S) (u : U) : Prop :=
  b.Settled s (fd.wipe u) ((fd.puts u).map Prod.fst).toFinset

variable {fd}

/-- One update does to the store what its edits come to at the keys that are read. -/
theorem view_apply {b : Board S K V} {s : S} {u : U} (h : fd.Settled b s u) (k : K) :
    b.view (fd.apply b s u) k =
      (outcome overwrite (rekey fd.read (fd.edits [u])) k).onto (b.view s k) := by
  rw [edits_singleton, rekey_edits]
  exact Board.view_update h k

/-- **The updates one by one.** -/
theorem view_run {b : Board S K V} {s : S} {us : List U}
    (h : Along (fd.apply b) (fd.Settled b) s us) (k : K) :
    b.view (foldSteps (fd.apply b) s us) k =
      (outcome overwrite (rekey fd.read (fd.edits us)) k).onto (b.view s k) := by
  induction us generalizing s with
  | nil => rfl
  | cons u us ih =>
      have hcons : fd.edits (u :: us) = fd.edits [u] ++ fd.edits us := by
        rw [edits_singleton]
        exact List.flatMap_cons
      rw [Machine.foldSteps_cons, ih h.2, view_apply h.1, hcons, rekey_append, onto_append]

end Stores

/-! ### The merge -/

section Merges

variable [LinearOrder K']

/-- The accumulators after a sequence of updates. -/
def sum (us : List U) : Accum K' A R :=
  us.foldl (fun acc u => acc.step fd.reading (fd.wipe u) (fd.removed u) (fd.active u)) .new

/-- An update that says what the accumulators hold, in any order. -/
structure IsMerge (u : U) (acc : Accum K' A R) : Prop where
  wipe : fd.wipe u = acc.wiped
  removed : (fd.removed u).Perm acc.goneOnly.values
  active : (fd.active u).Perm acc.held.values

variable {fd}

theorem sums_sum (us : List U) : (fd.sum us).Sums fd.reading (fd.edits us) := by
  induction us using List.reverseRecOn with
  | nil => exact Accum.sums_new
  | append_singleton us u ih =>
      rw [edits_snoc, sum, List.foldl_append]
      exact ih.step ..

/-- **The updates merged into one**: what the one comes to at a key is what they come to there,
    where no key is spelled in two ways. -/
theorem outcome_isMerge [DecidableEq K] {us : List U} {u : U} (hu : fd.IsMerge u (fd.sum us))
    (hone : OneSpelling fd.read (fd.names us)) (join : V → V → V) (k : K) :
    outcome join (rekey fd.read (fd.edits [u])) k =
      outcome fd.reading.join (rekey fd.read (fd.edits us)) k := by
  have hsums : (fd.sum us).Sums fd.reading (fd.edits us) := sums_sum us
  have hmerged : ∀ s, outcome join (fd.edits [u]) s = outcome fd.reading.join (fd.edits us) s := by
    intro s
    rw [edits_singleton, hu.wipe]
    exact hsums.outcome_merged hu.removed hu.active join s
  -- the one update names nothing that the others do not name
  have hnames : ∀ e ∈ fd.edits [u], ∀ s, e.Names s → s ∈ fd.names us := by
    intro e he s hn
    rw [edits_singleton] at he
    have hs : (fd.sum us).held.lookup s ≠ none ∨ ((fd.sum us).gone.lookup s).isSome := by
      rcases names_of_mem_batch he hn with hd | hp
      · have hd := ((hu.removed.map _).mem_iff.trans hsums.mem_droppedKeys).mp hd
        exact .inr hd.2
      · rw [List.map_map] at hp
        have hp := ((hu.active.map fd.reading.keyOf).mem_iff).mp hp
        rw [hsums.map_keyOf_values] at hp
        exact .inl fun hnone => SortedMap.lookup_eq_none.mp hnone hp
    obtain ⟨e', he', hn'⟩ := hsums.named (hs.imp_left Option.ne_none_iff_isSome.mp)
    exact mem_names_of_edit he' hn'
  by_cases hk : ∃ s ∈ fd.names us, fd.read s = some k
  · obtain ⟨s, hs, hread⟩ := hk
    rw [outcome_rekey hread fun e he t hn ht => hone t (hnames e he t hn) s hs k ht hread,
      outcome_rekey hread fun e he t hn ht => hone t (mem_names_of_edit he hn) s hs k ht hread]
    exact hmerged s
  · have hk : ∀ s ∈ fd.names us, fd.read s ≠ some k := fun s hs h => hk ⟨s, hs, h⟩
    rw [outcome_rekey_absent fun e he t hn => hk t (hnames e he t hn),
      outcome_rekey_absent fun e he t hn => hk t (mem_names_of_edit he hn), hsums.clear,
      edits_singleton, hu.wipe]
    congr 2
    exact any_clear_batch

end Merges

end Feed

end Overwrite
