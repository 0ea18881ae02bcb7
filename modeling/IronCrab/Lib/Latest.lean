/-
  File:      IronCrab/Lib/Latest.lean
  Subject:   THE LATEST OF A LOG OF STAMPED VALUES. Nothing here names a program.

  Messages with a stamp arrive in any order and are logged as they arrive. A register SHOWS THE
  LATEST of its log when it holds the value of the greatest stamp logged. What an arrival asks of
  the register depends only on whether its stamp lies over the log:

  * `Latest.snoc_over` -- a stamp over the log: the register must take the value;
  * `Latest.snoc_under` -- a stamp that is not: the register must keep what it holds;
  * `Latest.snoc_same` -- a register that already holds the value may do either.

  A register that skips what looks like the value it holds keeps the old stamp with it, and is then
  open to what it should refuse:

  * **`showsNewest_iff`** -- it shows the newest value all along exactly if no `Relapse` comes;
  * `showsNewest_of_inOrder`, `holds_last_of_inOrder` -- and none comes where the stamps never go
    back: it shows the last.
-/
import IronCrab.Lib.Machine

namespace Latest

variable {V : Type}

/-- The stamp lies over every stamp of the log. -/
def Over (log : List (Nat × V)) (stamp : Nat) : Prop := ∀ d ∈ log, d.1 < stamp

instance (log : List (Nat × V)) (stamp : Nat) : Decidable (Over log stamp) :=
  inferInstanceAs (Decidable (∀ d ∈ log, d.1 < stamp))

/-- The register holds the value of the greatest stamp of the log. -/
def ShowsLatest (log : List (Nat × V)) (shown : Option V) : Prop :=
  ∀ d ∈ log, (∀ d' ∈ log, d'.1 ≤ d.1) → shown = some d.2

theorem ShowsLatest.nil (shown : Option V) : ShowsLatest [] shown :=
  fun _ hd => (nomatch hd)

variable {log : List (Nat × V)} {shown : Option V} {stamp : Nat} {v : V}

/-- The greatest of a log and one more is the new one or the greatest of the log. -/
theorem greatest_snoc {d : Nat × V} (hd : d ∈ log ++ [(stamp, v)])
    (hg : ∀ d' ∈ log ++ [(stamp, v)], d'.1 ≤ d.1) :
    d = (stamp, v) ∨ d ∈ log ∧ (∀ d' ∈ log, d'.1 ≤ d.1) ∧ stamp ≤ d.1 := by
  rcases List.mem_append.mp hd with hl | hn
  · refine .inr ⟨hl, fun d' hd' => hg d' (List.mem_append_left _ hd'), ?_⟩
    exact hg (stamp, v) (List.mem_append_right _ (List.mem_singleton.mpr rfl))
  · exact .inl (List.mem_singleton.mp hn)

/-- **A value over the log is the latest.** -/
theorem ShowsLatest.snoc_over (h : Over log stamp) : ShowsLatest (log ++ [(stamp, v)]) (some v) := by
  intro d hd hg
  rcases greatest_snoc hd hg with rfl | ⟨hl, _, hs⟩
  · rfl
  · exact absurd (h d hl) (Nat.not_lt.mpr hs)

/-- **A value that is not over the log leaves the latest as it was.** -/
theorem ShowsLatest.snoc_under (h : ShowsLatest log shown) (hu : ¬ Over log stamp)
    (hne : ∀ d ∈ log, d.1 ≠ stamp) : ShowsLatest (log ++ [(stamp, v)]) shown := by
  intro d hd hg
  rcases greatest_snoc hd hg with rfl | ⟨hl, hg', _⟩
  · refine absurd (fun d' hd' => ?_) hu
    exact Nat.lt_of_le_of_ne (hg d' (List.mem_append_left _ hd')) (hne d' hd')
  · exact h d hl hg'

/-- A register that holds the value shows the latest either way. -/
theorem ShowsLatest.snoc_same (h : ShowsLatest log (some v)) :
    ShowsLatest (log ++ [(stamp, v)]) (some v) := by
  intro d hd hg
  rcases greatest_snoc hd hg with rfl | ⟨hl, hg', _⟩
  · rfl
  · exact h d hl hg'

/-! ## 2. A register that skips what it holds -/

section Skipping

open Machine (foldSteps Along)

variable {K : Type} [DecidableEq K] (look : V → K)

/-- What is newest: of two with one stamp the later one. -/
def newer (held : Option (Nat × V)) (d : Nat × V) : Option (Nat × V) :=
  match held with
  | none => some d
  | some h => if d.1 < h.1 then some h else some d

/-- What the register holds: nothing is written that looks like the value there, or is older than
its stamp. -/
def skipping (held : Option (Nat × V)) (d : Nat × V) : Option (Nat × V) :=
  match held with
  | none => some d
  | some h => if look h.2 = look d.2 ∨ d.1 < h.1 then some h else some d

/-- The register and what is newest, over one arrival. -/
def both (s : Option (Nat × V) × Option (Nat × V)) (d : Nat × V) :
    Option (Nat × V) × Option (Nat × V) := (skipping look s.1 d, newer s.2 d)

/-- The register shows what looks like the newest value. -/
def Shows (s : Option (Nat × V) × Option (Nat × V)) : Prop :=
  s.1.map (fun h => look h.2) = s.2.map fun n => look n.2

/-- **A relapse**: what arrives looks different, is older than the newest, and is not older than the
stamp that the register kept. -/
def Relapse (s : Option (Nat × V) × Option (Nat × V)) (d : Nat × V) : Prop :=
  ∃ h n, s.1 = some h ∧ s.2 = some n ∧ look h.2 ≠ look d.2 ∧ h.1 ≤ d.1 ∧ d.1 < n.1

/-- The register shows the newest value, with a stamp that is not greater. -/
inductive InStep : Option (Nat × V) × Option (Nat × V) → Prop
  | empty : InStep (none, none)
  | held (h n : Nat × V) (hlook : look h.2 = look n.2) (hstamp : h.1 ≤ n.1) :
      InStep (some h, some n)

variable {look}

omit [DecidableEq K] in
theorem InStep.shows {s : Option (Nat × V) × Option (Nat × V)} (h : InStep look s) :
    Shows look s := by
  cases h with
  | empty => rfl
  | held h n hlook _ => exact congrArg some hlook

/-- **An arrival that is no relapse** leaves the register in step. -/
theorem InStep.both {s : Option (Nat × V) × Option (Nat × V)} {d : Nat × V} (h : InStep look s)
    (hno : ¬ Relapse look s d) : InStep look (both look s d) := by
  cases h with
  | empty => exact .held d d rfl (Nat.le_refl _)
  | held h n hlook hstamp =>
      unfold Latest.both skipping newer
      dsimp only
      by_cases hsame : look h.2 = look d.2
      · rw [if_pos (.inl hsame)]
        split_ifs with hold
        · exact .held h n hlook hstamp
        · exact .held h d hsame (by omega)
      · by_cases hold : d.1 < h.1
        · rw [if_pos (.inr hold), if_pos (by omega)]
          exact .held h n hlook hstamp
        · have hnewest : ¬ d.1 < n.1 := fun hlt =>
            hno ⟨h, n, rfl, rfl, hsame, Nat.le_of_not_lt hold, hlt⟩
          rw [if_neg (not_or.mpr ⟨hsame, hold⟩), if_neg hnewest]
          exact .held d d rfl (Nat.le_refl _)

/-- **A relapse** shows something else. -/
theorem InStep.not_shows_of_relapse {s : Option (Nat × V) × Option (Nat × V)} {d : Nat × V}
    (h : InStep look s) (hrelapse : Relapse look s d) : ¬ Shows look (Latest.both look s d) := by
  obtain ⟨held, newest, hheld, hnewest, hlook, hold, hlt⟩ := hrelapse
  cases h with
  | empty => cases hheld
  | held h n hsame _ =>
      cases hheld
      cases hnewest
      unfold Shows Latest.both skipping newer
      dsimp only
      rw [if_neg (not_or.mpr ⟨hlook, Nat.not_lt.mpr hold⟩), if_pos hlt]
      intro heq
      exact hlook (hsame.trans (Option.some.inj heq).symm)

/-- **The register shows the newest value all along exactly if no relapse comes.** -/
theorem showsNewest_iff (log : List (Nat × V)) :
    Along (Latest.both look) (fun s d => ¬ Relapse look s d) (none, none) log ↔
      ∀ before after, log = before ++ after →
        Shows look (foldSteps (Latest.both look) (none, none) before) :=
  Machine.along_iff_all_before (I := InStep look) (fun _ h => h.shows) (fun _ _ hno h => h.both hno)
    (fun _ _ h hshows hrelapse => h.not_shows_of_relapse hrelapse hshows) .empty

/-- The value of stamp 7 comes again with stamp 9; what was delayed with stamp 8 is then taken. -/
example : [(7, 'a'), (9, 'a'), (8, 'b')].foldl (skipping id) none = some (8, 'b') ∧
    [(7, 'a'), (9, 'a'), (8, 'b')].foldl newer none = some (9, 'a') := by decide

/-- Stamps that never go back bring no relapse. -/
theorem noRelapse_of_inOrder {log : List (Nat × V)} (hlog : log.Pairwise fun a b => a.1 ≤ b.1)
    {s : Option (Nat × V) × Option (Nat × V)} (hs : ∀ n, s.2 = some n → ∀ d ∈ log, n.1 ≤ d.1) :
    Along (Latest.both look) (fun s d => ¬ Relapse look s d) s log := by
  induction log generalizing s with
  | nil => exact trivial
  | cons d log ih =>
      obtain ⟨hd, hlog⟩ := List.pairwise_cons.mp hlog
      refine ⟨?_, ih hlog fun n hn d' hd' => ?_⟩
      · intro hrelapse
        obtain ⟨_, n, _, hnewest, _, _, hlt⟩ := hrelapse
        exact absurd (hs n hnewest d List.mem_cons_self) (Nat.not_le.mpr hlt)
      · -- the newest after `d` is `d`
        have hnewest : n = d := by
          unfold Latest.both newer at hn
          cases hold : s.2 with
          | none =>
              rw [hold] at hn
              exact (Option.some.inj hn).symm
          | some m =>
              rw [hold] at hn
              dsimp only at hn
              rw [if_neg (Nat.not_lt.mpr (hs m hold d List.mem_cons_self))] at hn
              exact (Option.some.inj hn).symm
        rw [hnewest]
        exact hd d' hd'

omit [DecidableEq K] in
/-- What keeps what it holds or takes what arrives holds one of the arrivals. -/
theorem mem_of_foldl {f : Option (Nat × V) → Nat × V → Option (Nat × V)}
    (hf : ∀ held d, f held d = held ∨ f held d = some d) {n : Nat × V} :
    ∀ (l : List (Nat × V)) (held : Option (Nat × V)), l.foldl f held = some n →
      n ∈ l ∨ held = some n
  | [], _, h => .inr h
  | d :: l, held, h => by
      rcases mem_of_foldl hf l _ h with hmem | hheld
      · exact .inl (List.mem_cons_of_mem _ hmem)
      · rcases hf held d with hkept | htaken
        · exact .inr (hkept ▸ hheld)
        · rw [htaken] at hheld
          exact .inl (List.mem_cons.mpr (.inl (Option.some.inj hheld).symm))

omit [DecidableEq K] in
theorem newer_cases (held : Option (Nat × V)) (d : Nat × V) :
    newer held d = held ∨ newer held d = some d := by
  unfold newer
  cases held with
  | none => exact .inr rfl
  | some h =>
      dsimp only
      split_ifs
      · exact .inl rfl
      · exact .inr rfl

theorem skipping_cases (held : Option (Nat × V)) (d : Nat × V) :
    skipping look held d = held ∨ skipping look held d = some d := by
  unfold skipping
  cases held with
  | none => exact .inr rfl
  | some h =>
      dsimp only
      split_ifs
      · exact .inl rfl
      · exact .inr rfl

/-- What is newest of stamps that never go back is the last. -/
theorem newest_of_inOrder {log : List (Nat × V)} {d : Nat × V}
    (hlog : (log ++ [d]).Pairwise fun a b => a.1 ≤ b.1) :
    (log ++ [d]).foldl newer none = some d := by
  rw [List.foldl_append, List.foldl_cons, List.foldl_nil]
  cases hbefore : log.foldl newer none with
  | none => rfl
  | some n =>
      have hmem : n ∈ log := (mem_of_foldl newer_cases log none hbefore).resolve_right nofun
      have hle := (List.pairwise_append.mp hlog).2.2 n hmem d (List.mem_singleton.mpr rfl)
      unfold newer
      dsimp only
      rw [if_neg (Nat.not_lt.mpr hle)]

omit [DecidableEq K] in
/-- What holds of what is kept of every beginning holds of every beginning of what is kept. -/
theorem forall_before_filterMap {A B : Type} {f : A → Option B} {P : List B → Prop} {l : List A} :
    (∀ before after, l = before ++ after → P (before.filterMap f)) ↔
      ∀ before after, l.filterMap f = before ++ after → P before := by
  constructor
  · intro h before after hsplit
    obtain ⟨l₁, l₂, rfl, rfl, _⟩ := List.filterMap_eq_append_iff.mp hsplit
    exact h l₁ l₂ rfl
  · intro h before after hsplit
    exact h _ (after.filterMap f) (by rw [hsplit, List.filterMap_append])

theorem foldSteps_both (l : List (Nat × V)) (s : Option (Nat × V) × Option (Nat × V)) :
    foldSteps (Latest.both look) s l = (l.foldl (skipping look) s.1, l.foldl newer s.2) := by
  induction l generalizing s with
  | nil => rfl
  | cons d l ih => exact ih _

/-- **In order, the register shows the last value.** -/
theorem showsNewest_of_inOrder {log : List (Nat × V)} {d : Nat × V}
    (hlog : (log ++ [d]).Pairwise fun a b => a.1 ≤ b.1) :
    ((log ++ [d]).foldl (skipping look) none).map (fun h => look h.2) = some (look d.2) := by
  have hnone : Along (Latest.both look) (fun s d => ¬ Relapse look s d) (none, none) (log ++ [d]) :=
    noRelapse_of_inOrder hlog nofun
  have hshows := (showsNewest_iff _).mp hnone (log ++ [d]) [] (List.append_nil _).symm
  rw [foldSteps_both] at hshows
  unfold Shows at hshows
  dsimp only at hshows
  rw [hshows, newest_of_inOrder hlog]
  rfl

/-- **In order, the register holds the last value** where values that look alike are alike. -/
theorem holds_last_of_inOrder {log : List (Nat × V)}
    (hlog : log.Pairwise fun a b => a.1 ≤ b.1)
    (htell : ∀ a ∈ log, ∀ b ∈ log, look a.2 = look b.2 → a.2 = b.2) :
    (log.foldl (skipping look) none).map Prod.snd = log.getLast?.map Prod.snd := by
  rcases List.eq_nil_or_concat' log with rfl | ⟨before, d, rfl⟩
  · rfl
  · have hshows : ((before ++ [d]).foldl (skipping look) none).map (fun h => look h.2) =
        some (look d.2) := showsNewest_of_inOrder hlog
    obtain ⟨h, hheld, hlook⟩ := Option.map_eq_some_iff.mp hshows
    have hmem := (mem_of_foldl skipping_cases _ none hheld).resolve_right nofun
    have hlast : d ∈ before ++ [d] := List.mem_append_right _ (List.mem_singleton.mpr rfl)
    rw [hheld, List.getLast?_concat, Option.map_some, Option.map_some, htell h hmem d hlast hlook]

end Skipping

end Latest
