/-
  File:      IronCrab/Storage/QueuedJsonlWriter.lean
  Subject:   THE DEPTH OF THE JSONL QUEUE (src/storage/jsonl_writer.rs): enqueuing threads and the
             writer thread, step by step.

  Reading of the source's data:

  * any number of threads enqueue; a thread that is inside `try_enqueue_msg` stands in `loaded`
    (the load let it through) or in `sent` (its message is in the channel and not yet counted);
  * of a message it matters whether it is a record or a `Flush`. `Shutdown` is sent by `drop` only,
    when no other thread holds the writer;
  * `compare_exchange_weak` may fail without a reason; a failure reads the counter again.

  Main results:

  * `balance_step`, `depth_at_rest` -- the counter is too high by the number of decrements that
    found it at zero;
  * **`depth_counts_records`** -- what holds in every run without such a decrement;
  * `depth_differs` -- a record in the writer's hand counts, and a decrement that comes before its
    increment leaves a unit for good.
-/
import IronCrab.Lib.Machine
import Mathlib.Data.Finset.Card

namespace IronCrab

open Machine (Run)

/-! ## 1. The queue and its threads -/

/-- `QueuedJsonlMsg`. -/
inductive QueuedJsonlMsg where
  | record
  | flush
  deriving DecidableEq

/-- Where the `jsonl-writer` thread is. -/
inductive WriterAt where
  /-- In `recv_timeout`. -/
  | recv
  /-- With a record that it will hand to `write_line`. -/
  | write
  /-- Before the first load of `dec_queue_depth`. -/
  | decLoad
  /-- Before the exchange of `cur` for `cur - 1`. -/
  | decExchange (cur : Nat)
  deriving DecidableEq

/-- `QueuedJsonlWriter` with the threads inside its operations. -/
structure QueuedJsonlWriter (T : Type) where
  queueCapacity : Nat
  channel : List QueuedJsonlMsg
  queueDepth : Nat
  loaded : Finset T
  sent : Finset T
  writer : WriterAt

namespace QueuedJsonlWriter

section Steps

variable {T : Type} [DecidableEq T]

omit [DecidableEq T] in
/-- `spawn`. -/
def spawn (queueCapacity : Nat) : QueuedJsonlWriter T :=
  ⟨max queueCapacity 1, [], 0, ∅, ∅, .recv⟩

/-- The atomic steps. -/
inductive Act (T : Type) where
  | load (t : T)
  | trySend (t : T)
  | fetchAdd (t : T)
  | flush
  | recv
  | write
  /-- A load, or a failed exchange, that finds the counter above zero. -/
  | decRead
  /-- One that finds it at zero: the loop ends. -/
  | decStop
  | decExchange
  deriving DecidableEq

/-- `try_enqueue_msg` in its three steps, `flush`, and the loop of the writer thread. -/
def step (q : QueuedJsonlWriter T) : Act T → Option (QueuedJsonlWriter T)
  | .load t =>
      if t ∈ q.loaded ∪ q.sent then none
      else if q.queueCapacity ≤ q.queueDepth then some q
      else some { q with loaded := insert t q.loaded }
  | .trySend t =>
      if t ∉ q.loaded then none
      else if q.channel.length < q.queueCapacity then
        some { q with
          channel := q.channel ++ [.record]
          loaded := q.loaded.erase t
          sent := insert t q.sent }
      else some { q with loaded := q.loaded.erase t }
  | .fetchAdd t =>
      if t ∉ q.sent then none
      else some { q with queueDepth := q.queueDepth + 1, sent := q.sent.erase t }
  | .flush =>
      if q.channel.length < q.queueCapacity then some { q with channel := q.channel ++ [.flush] }
      else some q
  | .recv =>
      match q.writer, q.channel with
      | .recv, [] => some q
      | .recv, .record :: rest => some { q with channel := rest, writer := .write }
      | .recv, .flush :: rest => some { q with channel := rest }
      | _, _ => none
  | .write =>
      match q.writer with
      | .write => some { q with writer := .decLoad }
      | _ => none
  | .decRead =>
      match q.writer with
      | .decLoad | .decExchange _ =>
          if 0 < q.queueDepth then some { q with writer := .decExchange q.queueDepth } else none
      | _ => none
  | .decStop =>
      match q.writer with
      | .decLoad | .decExchange _ =>
          if q.queueDepth = 0 then some { q with writer := .recv } else none
      | _ => none
  | .decExchange =>
      match q.writer with
      | .decExchange cur =>
          if q.queueDepth = cur then some { q with queueDepth := cur - 1, writer := .recv }
          else none
      | _ => none

/-- A step of the machine. -/
def Step (q : QueuedJsonlWriter T) (a : Act T) (q' : QueuedJsonlWriter T) : Prop :=
  q.step a = some q'

/-- The step answers `false` to an enqueuing thread. -/
def Rejects (q : QueuedJsonlWriter T) : Act T → Prop
  | .load t => t ∉ q.loaded ∪ q.sent ∧ q.queueCapacity ≤ q.queueDepth
  | .trySend t => t ∈ q.loaded ∧ q.queueCapacity ≤ q.channel.length
  | _ => False

omit [DecidableEq T] in
/-- The records in the channel. -/
def records (q : QueuedJsonlWriter T) : Nat := q.channel.count .record

omit [DecidableEq T] in
/-- The record that the writer has received and not yet taken off the counter. -/
def inHand (q : QueuedJsonlWriter T) : Nat := if q.writer = .recv then 0 else 1

omit [DecidableEq T] in
/-- No thread is inside an operation. -/
structure AtRest (q : QueuedJsonlWriter T) : Prop where
  loaded : q.loaded = ∅
  sent : q.sent = ∅
  writer : q.writer = .recv

omit [DecidableEq T] in
/-- **The books of the queue**: the counter and the records not yet counted make up the records in
    the channel and in the writer's hand, up to the decrements that found nothing to take. -/
structure Balance (missed : Nat) (q : QueuedJsonlWriter T) : Prop where
  depth : q.queueDepth + q.sent.card = q.records + q.inHand + missed
  slots : q.channel.length ≤ q.queueCapacity
  capacity : 1 ≤ q.queueCapacity
  apart : ∀ t ∈ q.loaded, t ∉ q.sent
  found : ∀ cur, q.writer = .decExchange cur → 0 < cur

end Steps

/-! ## 2. What a step does to the books -/

section Balance

variable {T : Type} [DecidableEq T] {q q' : QueuedJsonlWriter T} {missed : Nat} {t : T}

omit [DecidableEq T] in
theorem balance_spawn (queueCapacity : Nat) :
    Balance 0 (spawn queueCapacity : QueuedJsonlWriter T) :=
  ⟨rfl, Nat.zero_le _, Nat.le_max_right _ _, fun _ h => absurd h (Finset.notMem_empty _),
    fun _ h => nomatch h⟩

omit [DecidableEq T] in
theorem inHand_recv (h : q.writer = .recv) : q.inHand = 0 := if_pos h

omit [DecidableEq T] in
theorem inHand_busy (h : q.writer ≠ .recv) : q.inHand = 1 := if_neg h

theorem balance_load (h : Balance missed q) (hs : q.Step (.load t) q') : Balance missed q' := by
  simp only [Step, step] at hs
  split_ifs at hs with hin hfull
  · cases hs
    exact h
  · cases hs
    refine ⟨h.depth, h.slots, h.capacity, fun u hu => ?_, h.found⟩
    rcases Finset.mem_insert.mp hu with rfl | hu
    · exact fun hsent => hin (Finset.mem_union_right _ hsent)
    · exact h.apart u hu

theorem balance_trySend (h : Balance missed q) (hs : q.Step (.trySend t) q') :
    Balance missed q' := by
  simp only [Step, step] at hs
  have hapart : ∀ u ∈ q.loaded.erase t, u ∉ q.sent := fun u hu =>
    h.apart u (Finset.mem_of_mem_erase hu)
  split_ifs at hs with hin hroom
  · cases hs
    refine ⟨?_, ?_, h.capacity, fun u hu hsent => ?_, h.found⟩
    · have hdepth := h.depth
      have hcard : (insert t q.sent).card = q.sent.card + 1 :=
        Finset.card_insert_of_notMem (h.apart t hin)
      have hcount : (q.channel ++ [QueuedJsonlMsg.record]).count .record = q.records + 1 := by
        simp [records]
      show q.queueDepth + (insert t q.sent).card =
        (q.channel ++ [QueuedJsonlMsg.record]).count .record + q.inHand + missed
      omega
    · show (q.channel ++ [QueuedJsonlMsg.record]).length ≤ q.queueCapacity
      rw [List.length_append, List.length_singleton]
      exact hroom
    · rcases Finset.mem_insert.mp hsent with rfl | hsent
      · exact Finset.notMem_erase _ _ hu
      · exact hapart u hu hsent
  · cases hs
    exact ⟨h.depth, h.slots, h.capacity, hapart, h.found⟩

theorem balance_fetchAdd (h : Balance missed q) (hs : q.Step (.fetchAdd t) q') :
    Balance missed q' := by
  simp only [Step, step] at hs
  split_ifs at hs with hin
  cases hs
  refine ⟨?_, h.slots, h.capacity, fun u hu hsent =>
    h.apart u hu (Finset.mem_of_mem_erase hsent), h.found⟩
  have hdepth := h.depth
  have hcard : (q.sent.erase t).card + 1 = q.sent.card := Finset.card_erase_add_one hin
  show q.queueDepth + 1 + (q.sent.erase t).card = q.records + q.inHand + missed
  omega

theorem balance_flush (h : Balance missed q) (hs : q.Step .flush q') : Balance missed q' := by
  simp only [Step, step] at hs
  split_ifs at hs with hroom
  · cases hs
    refine ⟨?_, ?_, h.capacity, h.apart, h.found⟩
    · have hcount : (q.channel ++ [QueuedJsonlMsg.flush]).count .record = q.records := by
        simp [records]
      show q.queueDepth + q.sent.card =
        (q.channel ++ [QueuedJsonlMsg.flush]).count .record + q.inHand + missed
      rw [hcount]
      exact h.depth
    · show (q.channel ++ [QueuedJsonlMsg.flush]).length ≤ q.queueCapacity
      rw [List.length_append, List.length_singleton]
      exact hroom
  · cases hs
    exact h

/-- A record moves from the channel into the writer's hand. -/
theorem balance_recv (h : Balance missed q) (hs : q.Step .recv q') : Balance missed q' := by
  obtain ⟨queueCapacity, channel, queueDepth, loaded, sent, writer⟩ := q
  have hdepth := h.depth
  have hslots := h.slots
  simp only [Step, step] at hs
  split at hs
  · cases hs
    exact h
  · cases hs
    refine ⟨?_, Nat.le_of_succ_le hslots, h.capacity, h.apart, fun _ he => nomatch he⟩
    simpa [records, inHand] using hdepth
  · cases hs
    refine ⟨?_, Nat.le_of_succ_le hslots, h.capacity, h.apart, fun _ he => nomatch he⟩
    simpa [records, inHand] using hdepth
  · cases hs

theorem balance_write (h : Balance missed q) (hs : q.Step .write q') : Balance missed q' := by
  obtain ⟨queueCapacity, channel, queueDepth, loaded, sent, writer⟩ := q
  cases writer <;> cases hs
  exact ⟨h.depth, h.slots, h.capacity, h.apart, fun _ he => nomatch he⟩

theorem balance_decRead (h : Balance missed q) (hs : q.Step .decRead q') : Balance missed q' := by
  obtain ⟨queueCapacity, channel, queueDepth, loaded, sent, writer⟩ := q
  simp only [Step, step] at hs
  split at hs
  · split_ifs at hs with hpos
    cases hs
    refine ⟨h.depth, h.slots, h.capacity, h.apart, fun cur he => ?_⟩
    cases he
    exact hpos
  · split_ifs at hs with hpos
    cases hs
    refine ⟨h.depth, h.slots, h.capacity, h.apart, fun cur he => ?_⟩
    cases he
    exact hpos
  · cases hs

/-- A decrement that finds nothing to take is missed. -/
theorem balance_decStop (h : Balance missed q) (hs : q.Step .decStop q') :
    Balance (missed + 1) q' := by
  obtain ⟨queueCapacity, channel, queueDepth, loaded, sent, writer⟩ := q
  have hdepth := h.depth
  simp only [Step, step] at hs
  split at hs
  · split_ifs at hs
    cases hs
    refine ⟨?_, h.slots, h.capacity, h.apart, fun _ he => nomatch he⟩
    simp only [records, inHand] at hdepth ⊢
    simp at hdepth ⊢
    omega
  · split_ifs at hs
    cases hs
    refine ⟨?_, h.slots, h.capacity, h.apart, fun _ he => nomatch he⟩
    simp only [records, inHand] at hdepth ⊢
    simp at hdepth ⊢
    omega
  · cases hs

theorem balance_decExchange (h : Balance missed q) (hs : q.Step .decExchange q') :
    Balance missed q' := by
  obtain ⟨queueCapacity, channel, queueDepth, loaded, sent, writer⟩ := q
  have hdepth := h.depth
  simp only [Step, step] at hs
  split at hs
  · rename_i cur
    have hpos : 0 < cur := h.found cur rfl
    split_ifs at hs with hcur
    cases hs
    refine ⟨?_, h.slots, h.capacity, h.apart, fun _ he => nomatch he⟩
    simp [records, inHand] at hdepth ⊢
    omega
  · cases hs

/-- **A step keeps the books**; a decrement that finds the counter at zero is missing in them. -/
theorem balance_step (h : Balance missed q) {a : Act T} (hs : q.Step a q') :
    Balance (missed + if a = .decStop then 1 else 0) q' := by
  cases a with
  | load t => exact balance_load h hs
  | trySend t => exact balance_trySend h hs
  | fetchAdd t => exact balance_fetchAdd h hs
  | flush => exact balance_flush h hs
  | recv => exact balance_recv h hs
  | write => exact balance_write h hs
  | decRead => exact balance_decRead h hs
  | decStop => exact balance_decStop h hs
  | decExchange => exact balance_decExchange h hs

/-- **The books of a run.** -/
theorem balance_run {queueCapacity : Nat} {tr : List (Act T)}
    (hr : Run Step (spawn queueCapacity) tr q) : Balance (tr.count .decStop) q := by
  refine hr.invariant (I := fun tr q => Balance (tr.count .decStop) q)
    (balance_spawn queueCapacity) fun tr q a q' _ ih hs => ?_
  have hcount : (tr ++ [a]).count .decStop = tr.count .decStop + if a = .decStop then 1 else 0 := by
    rw [List.count_append, List.count_singleton]
    simp
  rw [hcount]
  exact balance_step ih hs

omit [DecidableEq T] in
/-- With no thread inside an operation the counter exceeds the records in the channel by the missed
    decrements. -/
theorem depth_at_rest (h : Balance missed q) (hrest : q.AtRest) :
    q.queueDepth = q.records + missed := by
  have hdepth := h.depth
  rw [hrest.sent, Finset.card_empty, inHand_recv hrest.writer] at hdepth
  omega

end Balance

/-! ## 3. Finishing what is under way -/

section Drain

variable {T : Type} [DecidableEq T] {q q' q'' : QueuedJsonlWriter T}

omit [DecidableEq T] in
/-- A step of a call or of the writer that has begun, and no missed decrement. -/
def Act.Finishing : Act T → Prop
  | .load _ | .flush | .decStop => False
  | _ => True

/-- The threads that are inside their operations get there. -/
def Reaches (q q' : QueuedJsonlWriter T) : Prop :=
  ∃ tr, Run Step q tr q' ∧ ∀ a ∈ tr, Act.Finishing a

theorem Reaches.refl (q : QueuedJsonlWriter T) : Reaches q q :=
  ⟨[], .start, fun _ h => absurd h List.not_mem_nil⟩

theorem Reaches.trans (h : Reaches q q') (h' : Reaches q' q'') : Reaches q q'' := by
  obtain ⟨tr, hr, hf⟩ := h
  obtain ⟨tr', hr', hf'⟩ := h'
  exact ⟨tr ++ tr', hr.append hr', fun a ha => (List.mem_append.mp ha).elim (hf a) (hf' a)⟩

theorem Reaches.single {a : Act T} (hs : q.Step a q') (ha : a.Finishing) : Reaches q q' :=
  ⟨[a], .single hs, fun _ hb => List.mem_singleton.mp hb ▸ ha⟩

theorem Reaches.balance (h : Reaches q q') (hq : Balance 0 q) : Balance 0 q' := by
  obtain ⟨tr, hr, hf⟩ := h
  induction hr with
  | start => exact hq
  | snoc tr s s' a _ hs ih =>
      have hstep := balance_step (ih fun b hb => hf b (List.mem_append_left _ hb)) hs
      have hne : a ≠ .decStop := fun he =>
        (he ▸ hf a (List.mem_append_right _ List.mem_cons_self) : (Act.decStop : Act T).Finishing)
      rwa [if_neg hne] at hstep

/-- Every thread that has sent counts its record. -/
theorem reaches_counted (q : QueuedJsonlWriter T) :
    ∃ q', Reaches q q' ∧ q'.sent = ∅ ∧ q'.loaded = q.loaded := by
  generalize hn : q.sent.card = n
  induction n generalizing q with
  | zero => exact ⟨q, .refl q, Finset.card_eq_zero.mp hn, rfl⟩
  | succ n ih =>
      obtain ⟨t, ht⟩ : q.sent.Nonempty := Finset.card_pos.mp (by omega)
      let next : QueuedJsonlWriter T :=
        { q with queueDepth := q.queueDepth + 1, sent := q.sent.erase t }
      have hs : q.Step (.fetchAdd t) next := if_neg (not_not.mpr ht)
      have hcard : next.sent.card = n := by
        have herase := Finset.card_erase_add_one ht
        show (q.sent.erase t).card = n
        omega
      obtain ⟨q', hr, hsent, hloaded⟩ := ih next hcard
      exact ⟨q', (Reaches.single hs trivial).trans hr, hsent, hloaded⟩

/-- Every thread that has loaded sends or gives up. -/
theorem reaches_sent (q : QueuedJsonlWriter T) : ∃ q', Reaches q q' ∧ q'.loaded = ∅ := by
  generalize hn : q.loaded.card = n
  induction n generalizing q with
  | zero => exact ⟨q, .refl q, Finset.card_eq_zero.mp hn⟩
  | succ n ih =>
      obtain ⟨t, ht⟩ : q.loaded.Nonempty := Finset.card_pos.mp (by omega)
      have hnext : ∃ next, q.Step (.trySend t) next ∧ next.loaded = q.loaded.erase t := by
        by_cases hroom : q.channel.length < q.queueCapacity
        · exact ⟨_, (if_neg (not_not.mpr ht)).trans (if_pos hroom), rfl⟩
        · exact ⟨_, (if_neg (not_not.mpr ht)).trans (if_neg hroom), rfl⟩
      obtain ⟨next, hs, hloaded⟩ := hnext
      have hcard : next.loaded.card = n := by
        have herase := Finset.card_erase_add_one ht
        rw [hloaded]
        omega
      obtain ⟨q', hr, hempty⟩ := ih next hcard
      exact ⟨q', (Reaches.single hs trivial).trans hr, hempty⟩

/-- The writer finishes the record in its hand. -/
theorem reaches_handled (h : Balance 0 q) (hloaded : q.loaded = ∅) (hsent : q.sent = ∅) :
    ∃ q', Reaches q q' ∧ q'.AtRest ∧ q'.channel = q.channel := by
  by_cases hw : q.writer = .recv
  · exact ⟨q, .refl q, ⟨hloaded, hsent, hw⟩, rfl⟩
  have hpos : 0 < q.queueDepth := by
    have hdepth := h.depth
    rw [hsent, Finset.card_empty, inHand_busy hw] at hdepth
    omega
  let found : QueuedJsonlWriter T := { q with writer := .decExchange q.queueDepth }
  let done : QueuedJsonlWriter T := { q with queueDepth := q.queueDepth - 1, writer := .recv }
  have hdone : Reaches found done := .single (a := .decExchange) (if_pos rfl) trivial
  refine ⟨done, ?_, ⟨hloaded, hsent, rfl⟩, rfl⟩
  cases hwriter : q.writer with
  | recv => exact absurd hwriter hw
  | write =>
      let loading : QueuedJsonlWriter T := { q with writer := .decLoad }
      have hwrite : Reaches q loading := by
        refine .single (a := .write) ?_ trivial
        simp only [Step, step, hwriter]
        rfl
      have hread : Reaches loading found := .single (a := .decRead) (if_pos hpos) trivial
      exact (hwrite.trans hread).trans hdone
  | decLoad =>
      have hread : Reaches q found := by
        refine .single (a := .decRead) ?_ trivial
        simp only [Step, step, hwriter]
        exact if_pos hpos
      exact hread.trans hdone
  | decExchange cur =>
      have hread : Reaches q found := by
        refine .single (a := .decRead) ?_ trivial
        simp only [Step, step, hwriter]
        exact if_pos hpos
      exact hread.trans hdone

/-- The writer empties the channel. -/
theorem reaches_drained (h : Balance 0 q) (hrest : q.AtRest) :
    ∃ q', Reaches q q' ∧ q'.AtRest ∧ q'.channel = [] := by
  generalize hc : q.channel = channel
  induction channel generalizing q with
  | nil => exact ⟨q, .refl q, hrest, hc⟩
  | cons msg rest ih =>
      cases msg with
      | flush =>
          let next : QueuedJsonlWriter T := { q with channel := rest, writer := .recv }
          have hs : Reaches q next := by
            refine .single (a := .recv) ?_ trivial
            simp only [Step, step, hrest.writer, hc]
            rfl
          obtain ⟨q', hr, hq'⟩ := ih (hs.balance h) ⟨hrest.loaded, hrest.sent, rfl⟩ rfl
          exact ⟨q', hs.trans hr, hq'⟩
      | record =>
          let next : QueuedJsonlWriter T := { q with channel := rest, writer := .write }
          have hs : Reaches q next := by
            refine .single (a := .recv) ?_ trivial
            simp only [Step, step, hrest.writer, hc]
            rfl
          obtain ⟨handled, hh, hrest', hchannel⟩ :=
            reaches_handled (hs.balance h) hrest.loaded hrest.sent
          obtain ⟨q', hr, hq'⟩ := ih ((hs.trans hh).balance h) hrest' hchannel
          exact ⟨q', (hs.trans hh).trans hr, hq'⟩

/-- **Finishing what is under way leaves a queue at rest with nothing in it.** -/
theorem reaches_idle (h : Balance 0 q) : ∃ q', Reaches q q' ∧ q'.AtRest ∧ q'.channel = [] := by
  obtain ⟨q₁, h₁, hloaded⟩ := reaches_sent q
  obtain ⟨q₂, h₂, hsent, hsame⟩ := reaches_counted q₁
  have h₁₂ := h₁.trans h₂
  obtain ⟨q₃, h₃, hrest, _⟩ := reaches_handled (h₁₂.balance h) (hsame.trans hloaded) hsent
  have h₁₃ := h₁₂.trans h₃
  obtain ⟨q₄, h₄, hidle⟩ := reaches_drained (h₁₃.balance h) hrest
  exact ⟨q₄, h₁₃.trans h₄, hidle⟩

/-- A call of `try_enqueue_msg` goes through: it adds to the counter only when it has sent. -/
def Accepts (q : QueuedJsonlWriter T) (t : T) : Prop :=
  ∃ q', Run Step q [.load t, .trySend t, .fetchAdd t] q'

/-- A writer that waits on an empty channel leaves the counter at zero, and a call goes through. -/
theorem accepts_of_waiting (h : Balance 0 q) (hw : q.writer = .recv) (hempty : q.channel = []) :
    q.queueDepth = 0 ∧ ∀ t ∉ q.loaded ∪ q.sent, q.Accepts t := by
  have hzero : q.queueDepth = 0 := by
    have hdepth := h.depth
    rw [inHand_recv hw, records, hempty, List.count_nil] at hdepth
    omega
  refine ⟨hzero, fun t ht => ?_⟩
  have hcap := h.capacity
  let loaded : QueuedJsonlWriter T := { q with loaded := insert t q.loaded }
  have hload : q.Step (.load t) loaded := (if_neg ht).trans (if_neg (by omega))
  have hsend : loaded.Step (.trySend t) { loaded with
      channel := q.channel ++ [.record]
      loaded := loaded.loaded.erase t
      sent := insert t q.sent } := by
    refine (if_neg (not_not.mpr (Finset.mem_insert_self _ _))).trans (if_pos ?_)
    show q.channel.length < q.queueCapacity
    rw [hempty]
    exact hcap
  exact ⟨_, .cons hload (.cons hsend (.single (if_neg (not_not.mpr (Finset.mem_insert_self _ _)))))⟩

end Drain

/-! ## 4. The counter -/

section Depth

variable {T : Type} [DecidableEq T]

/-- **THE QUEUE DEPTH.** In every run of any number of threads in which no decrement finds the
    counter at zero: with no thread inside an operation the counter is the number of records in
    the channel; a call is turned away only when the records in the channel and in the writer's
    hand reach the capacity, or messages fill the channel; a writer that waits on an empty channel
    leaves the counter at zero, and a call goes through; and the writer gets there. -/
theorem depth_counts_records {queueCapacity : Nat} {tr : List (Act T)} {q : QueuedJsonlWriter T}
    (hr : Run Step (spawn queueCapacity) tr q) (hstop : .decStop ∉ tr) :
    (q.AtRest → q.queueDepth = q.records) ∧
      (∀ a, q.Rejects a →
        q.queueCapacity ≤ q.records + q.inHand ∨ q.queueCapacity ≤ q.channel.length) ∧
      (q.writer = .recv → q.channel = [] →
        q.queueDepth = 0 ∧ ∀ t ∉ q.loaded ∪ q.sent, q.Accepts t) ∧
      ∃ q', Reaches q q' ∧ q'.AtRest ∧ q'.channel = [] := by
  have hbalance : Balance 0 q := by
    have hrun := balance_run hr
    rwa [List.count_eq_zero.mpr hstop] at hrun
  refine ⟨depth_at_rest hbalance, fun a ha => ?_, accepts_of_waiting hbalance,
    reaches_idle hbalance⟩
  have hdepth := hbalance.depth
  cases a with
  | load t => exact .inl (by have hfull : q.queueCapacity ≤ q.queueDepth := ha.2; omega)
  | trySend t => exact .inr ha.2
  | _ => exact ha.elim

/-- **ONE RECORD IN HAND, AND ONE COUNTED TOO LATE.** A queue of one. With the first record in the
    writer's hand a second one is turned away, though the channel is empty. When the writer is done
    with a record before it is counted, the counter stays at one and turns every record away. -/
theorem depth_differs :
    (∃ q : QueuedJsonlWriter Nat,
      Run Step (spawn 1) [.load 0, .trySend 0, .fetchAdd 0, .recv] q ∧
      q.Rejects (.load 1) ∧ q.records = 0 ∧ q.loaded ∪ q.sent = ∅) ∧
    ∃ q : QueuedJsonlWriter Nat,
      Run Step (spawn 1) [.load 0, .trySend 0, .recv, .write, .decStop, .fetchAdd 0] q ∧
      q.AtRest ∧ q.queueDepth = 1 ∧ q.records = 0 ∧ q.Rejects (.load 1) := by
  have hturned : (1 : Nat) ∉ (∅ ∪ ∅ : Finset Nat) ∧ 1 ≤ 1 := by decide
  refine ⟨⟨⟨1, [], 1, ∅, ∅, .write⟩, ?_, hturned, rfl, rfl⟩,
    ⟨1, [], 1, ∅, ∅, .recv⟩, ?_, ⟨rfl, rfl, rfl⟩, rfl, rfl, hturned⟩
  · exact .cons rfl (.cons rfl (.cons rfl (.single rfl)))
  · exact .cons rfl (.cons rfl (.cons rfl (.cons rfl (.cons rfl (.single rfl)))))

/-- A run of one record through the queue. -/
theorem depth_counts_records_once :
    ∃ (tr : List (Act Nat)) (q : QueuedJsonlWriter Nat),
      (Run Step (spawn 1) tr q ∧ .decStop ∉ tr) ∧ q.queueDepth = q.records := by
  let q : QueuedJsonlWriter Nat := ⟨1, [], 0, ∅, ∅, .recv⟩
  have hr : Run Step (spawn 1) [.load 0, .trySend 0, .fetchAdd 0, .recv, .write, .decRead,
      .decExchange] q :=
    .cons rfl (.cons rfl (.cons rfl (.cons rfl (.cons rfl (.cons rfl (.single rfl))))))
  have hstop : (.decStop : Act Nat) ∉ [.load 0, .trySend 0, .fetchAdd 0, .recv, .write, .decRead,
      .decExchange] := by
    decide
  exact ⟨_, q, ⟨hr, hstop⟩, (depth_counts_records hr hstop).1 ⟨rfl, rfl, rfl⟩⟩

end Depth

end QueuedJsonlWriter

end IronCrab
