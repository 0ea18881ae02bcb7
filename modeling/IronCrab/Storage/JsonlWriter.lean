/-
  File:      IronCrab/Storage/JsonlWriter.lean
  Subject:   THE JSONL WRITER AND ITS FILES (src/storage/jsonl_writer.rs).

  Reading of the source's data:

  * a calendar date is the number that `%Y%m%d` prints, a segment file of the prefix is named by
    its date and its number, and a directory is walked in that order;
  * every byte carries the call that wrote it, or nothing when it was there before; the writer does
    not read it;
  * what each underlying I/O call of a `write_json_line` comes to is given with the call: whether
    it fails, and how many bytes have moved by then;
  * counters are `Nat`s. A segment number saturates at the largest `u32`.

  Main results:

  * `books_takeAndFlush`, `openDay_spec`, `rotateSegment_spec`, `writeLine_spec` -- what each part
    of a call does to the lines of the log;
  * **`ok_exactly_once`** -- what holds after every sequence of calls in which the clock does not go
    back, no rotation fails, and no line is written behind a torn one;
  * `written_nowhere` -- a rotation that fails, and the next call.
-/
import IronCrab.Lib.Machine
import IronCrab.Lib.Lines
import IronCrab.Lib.SortedMap
import Mathlib.Algebra.GroupWithZero.Nat
import Mathlib.Data.Prod.Lex

namespace IronCrab

open Machine (Along foldSteps)
open Lines (lines EndsLine)

/-! ## 1. Files, lines and I/O -/

/-- `SegmentRotationLimits`. -/
structure SegmentRotationLimits where
  maxBytes : Nat
  maxRecords : Nat

namespace SegmentRotationLimits

/-- `should_rotate`. -/
def shouldRotate (limits : SegmentRotationLimits) (segmentBytes segmentRecords : Nat) : Bool :=
  (decide (0 < limits.maxBytes) && decide (limits.maxBytes ≤ segmentBytes)) ||
    (decide (0 < limits.maxRecords) && decide (limits.maxRecords ≤ segmentRecords))

/-- `file_exceeds_cap`. -/
def fileExceedsCap (limits : SegmentRotationLimits) (fileLen : Nat) : Bool :=
  decide (0 < limits.maxBytes) && decide (limits.maxBytes ≤ fileLen)

end SegmentRotationLimits

/-- `JsonlWriterConfig`. -/
structure JsonlWriterConfig where
  flushEachWrite : Bool
  segmentRotation : Option SegmentRotationLimits

/-- A segment file of the prefix: its date and its number. -/
abbrev Path := Nat ×ₗ Nat

/-- `segment_filename`. -/
def segmentFilename (date segmentIndex : Nat) : Path :=
  if segmentIndex ≤ 1 then toLex (date, 1) else toLex (date, segmentIndex)

/-- A byte and the call that wrote it. -/
abbrev TaggedByte := Option Nat × UInt8

def newline : UInt8 := 10

/-- The byte ends a line. -/
def isNewline (b : TaggedByte) : Bool := b.2 == newline

/-- The segment files of the prefix. -/
abbrev Disk := SortedMap Path (List TaggedByte)

namespace Disk

def content (disk : Disk) (path : Path) : List TaggedByte := (disk.lookup path).getD []

/-- Bytes at the end of a file. -/
def append (disk : Disk) (path : Path) (bytes : List TaggedByte) : Disk :=
  disk.insert path (disk.content path ++ bytes)

/-- The lines of the files in date and segment order. -/
def log (disk : Disk) : List (List TaggedByte) :=
  disk.entries.flatMap fun file => lines isNewline file.2

end Disk

/-- A serialized record: no byte of it is a newline. -/
structure Json where
  bytes : List UInt8
  oneLine : newline ∉ bytes

/-- The line of a call: the record and a newline. -/
def Json.line (json : Json) (call : Nat) : List TaggedByte :=
  (json.bytes ++ [newline]).map fun b => (some call, b)

/-- What a flush of a `BufWriter` comes to. -/
inductive FlushOutcome where
  | done
  /-- It fails after some bytes have moved; when the `BufWriter` is dropped then, more may move. -/
  | failed (moved dropped : Nat)
  deriving DecidableEq

/-- What `writeln!` into a `BufWriter` comes to. -/
inductive WriteOutcome where
  /-- Bytes that moved to the file on the way. -/
  | done (moved : Nat)
  /-- It fails after some bytes of the line were taken. -/
  | failed (taken moved : Nat)
  deriving DecidableEq

/-- What the I/O calls of one `write_json_line` come to, where they are made. -/
structure IoOutcome where
  existsFails : Path → Bool
  metadataFails : Path → Bool
  dayFlush : FlushOutcome
  dayOpen : Bool
  write : WriteOutcome
  flush : FlushOutcome
  rotateFlush : FlushOutcome
  rotateOpen : Bool

/-- The I/O call whose error a `write_json_line` returns. -/
inductive FailedCall where
  | dayFlush
  | dayOpen
  | write
  | flush
  | rotateFlush
  | rotateOpen
  deriving DecidableEq

/-- A call of `write_json_line`, the date it reads included. -/
structure WriteCall where
  today : Nat
  json : Json
  io : IoOutcome

/-! ## 2. The writer -/

/-- `BufWriter<File>`. -/
structure BufWriter where
  path : Path
  buffer : List TaggedByte

/-- `WriterState`. -/
structure WriterState where
  writer : Option BufWriter
  currentDate : Option Nat
  currentPath : Option Path
  segmentIndex : Nat
  segmentRecords : Nat
  segmentBytes : Nat
  recordsWritten : Nat
  bytesWritten : Nat

/-- `JsonlWriter` with the files it writes. -/
structure JsonlWriter where
  config : JsonlWriterConfig
  state : WriterState
  disk : Disk

namespace JsonlWriter

/-- `JsonlWriter::new`. -/
def new (config : JsonlWriterConfig) (disk : Disk) : JsonlWriter :=
  ⟨config, ⟨none, none, none, 1, 0, 0, 0, 0⟩, disk⟩

/-- The largest segment number. -/
def maxSegmentIndex : Nat := 2 ^ 32 - 1

/-- The loop of `resolve_append_segment`, for the segment numbers there are. -/
def resolveFrom (disk : Disk) (io : IoOutcome) (date : Nat) (limits : SegmentRotationLimits) :
    Nat → Nat → Nat
  | 0, idx => idx
  | fuel + 1, idx =>
      let path := segmentFilename date idx
      if io.existsFails path || (disk.lookup path).isNone then idx
      else
        let len := if io.metadataFails path then 0 else (disk.content path).length
        if limits.fileExceedsCap len then resolveFrom disk io date limits fuel (idx + 1) else idx

/-- The segment that a day starts with: `resolve_append_segment`, or the first one. -/
def daySegment (config : JsonlWriterConfig) (disk : Disk) (io : IoOutcome) (date : Nat) : Nat :=
  match config.segmentRotation with
  | some limits => resolveFrom disk io date limits (maxSegmentIndex - 1) 1
  | none => 1

/-- `writer.take()` and the flush of what was taken. -/
def takeAndFlush (w : JsonlWriter) (outcome : FlushOutcome) : Bool × JsonlWriter :=
  match w.state.writer with
  | none => (true, w)
  | some writer =>
      let w := { w with state.writer := none }
      match outcome with
      | .done => (true, { w with disk := w.disk.append writer.path writer.buffer })
      | .failed moved dropped =>
          (false, { w with
            disk := w.disk.append writer.path (writer.buffer.take (moved + dropped)) })

/-- `open_segment_locked`. -/
def openSegment (w : JsonlWriter) (io : IoOutcome) (opened : Bool) (date segmentIndex : Nat) :
    Bool × JsonlWriter :=
  let path := segmentFilename date segmentIndex
  let existingLen := if io.metadataFails path then 0 else (w.disk.content path).length
  if opened then
    (true, { w with
      disk := w.disk.append path []
      state := { w.state with
        writer := some ⟨path, []⟩
        currentDate := some date
        currentPath := some path
        segmentIndex
        segmentBytes := existingLen } })
  else (false, w)

/-- `open_day_locked`. -/
def openDay (w : JsonlWriter) (io : IoOutcome) (date : Nat) :
    Except FailedCall Unit × JsonlWriter :=
  match w.takeAndFlush io.dayFlush with
  | (false, w) => (.error .dayFlush, w)
  | (true, w) =>
      let segmentIndex := daySegment w.config w.disk io date
      let w := { w with
        state.segmentIndex := segmentIndex
        state.segmentRecords := 0
        state.segmentBytes := 0 }
      match w.openSegment io io.dayOpen date segmentIndex with
      | (true, w) => (.ok (), w)
      | (false, w) => (.error .dayOpen, w)

/-- `rotate_segment_locked`. -/
def rotateSegment (w : JsonlWriter) (io : IoOutcome) (date : Nat) :
    Except FailedCall Unit × JsonlWriter :=
  match w.takeAndFlush io.rotateFlush with
  | (false, w) => (.error .rotateFlush, w)
  | (true, w) =>
      let segmentIndex := min (w.state.segmentIndex + 1) maxSegmentIndex
      let w := { w with
        state.segmentIndex := segmentIndex
        state.segmentRecords := 0
        state.segmentBytes := 0 }
      match w.openSegment io io.rotateOpen date segmentIndex with
      | (true, w) => (.ok (), w)
      | (false, w) => (.error .rotateOpen, w)

/-- The first bytes of the buffer move to the file. -/
def drain (w : JsonlWriter) (writer : BufWriter) (moved : Nat) : JsonlWriter :=
  { w with
    disk := w.disk.append writer.path (writer.buffer.take moved)
    state.writer := some { writer with buffer := writer.buffer.drop moved } }

/-- `writeln!` into the open file and the flush behind it. -/
def writeLine (w : JsonlWriter) (io : IoOutcome) (line : List TaggedByte) :
    Except FailedCall Unit × JsonlWriter :=
  match w.state.writer with
  | none => (.ok (), w)
  | some writer =>
      match io.write with
      | .failed taken moved =>
          let writer := { writer with buffer := writer.buffer ++ line.dropLast.take taken }
          (.error .write, w.drain writer moved)
      | .done moved =>
          let writer := { writer with buffer := writer.buffer ++ line }
          if w.config.flushEachWrite then
            match io.flush with
            | .done => (.ok (), w.drain writer writer.buffer.length)
            | .failed flushed _ => (.error .flush, w.drain writer (moved + flushed))
          else (.ok (), w.drain writer moved)

/-- A line counts. -/
def count (w : JsonlWriter) (lineLen : Nat) : JsonlWriter :=
  { w with
    state.recordsWritten := w.state.recordsWritten + 1
    state.bytesWritten := w.state.bytesWritten + lineLen
    state.segmentRecords := w.state.segmentRecords + 1
    state.segmentBytes := w.state.segmentBytes + lineLen }

/-- The caps of the segment are reached. -/
def rotationDue (w : JsonlWriter) : Bool :=
  match w.config.segmentRotation with
  | some limits => limits.shouldRotate w.state.segmentBytes w.state.segmentRecords
  | none => false

/-- `write_json_line`, as the call with the given number. -/
def writeJsonLine (w : JsonlWriter) (number : Nat) (call : WriteCall) :
    Except FailedCall Unit × JsonlWriter :=
  let opened :=
    if w.state.currentDate ≠ some call.today then w.openDay call.io call.today else (.ok (), w)
  match opened with
  | (.error e, w) => (.error e, w)
  | (.ok (), w) =>
      match w.writeLine call.io (call.json.line number) with
      | (.error e, w) => (.error e, w)
      | (.ok (), w) =>
          let w := w.count (call.json.bytes.length + 1)
          if w.rotationDue then w.rotateSegment call.io call.today else (.ok (), w)

end JsonlWriter

/-- A call and its answer. -/
abbrev Answered := WriteCall × Except FailedCall Unit

/-- The writer and the calls it has answered. -/
structure JsonlRun where
  writer : JsonlWriter
  answered : List Answered

namespace JsonlRun

/-- A new writer on a directory with these files. -/
def start (config : JsonlWriterConfig) (files : SortedMap Path (List UInt8)) : JsonlRun :=
  let disk : Disk :=
    ⟨files.entries.map fun file => (file.1, file.2.map fun b => (none, b)), by
      rw [List.map_map]
      exact files.sorted⟩
  ⟨.new config disk, []⟩

/-- The next call. -/
def step (r : JsonlRun) (call : WriteCall) : JsonlRun :=
  let answer := r.writer.writeJsonLine r.answered.length call
  ⟨answer.2, r.answered ++ [(call, answer.1)]⟩

/-- The lines of the calls that returned `Ok`, in call order. -/
def okLines (r : JsonlRun) : List (List TaggedByte) :=
  r.answered.zipIdx.filterMap fun (done, number) =>
    match done.2 with
    | .ok () => some (done.1.json.line number)
    | .error _ => none

def log (r : JsonlRun) : List (List TaggedByte) := r.writer.disk.log

end JsonlRun

/-- The error is that of the call's own write or flush. -/
def ownFailure : Except FailedCall Unit → Bool
  | .error .write | .error .flush => true
  | _ => false

namespace JsonlRun

/-- The lines that were handed to a file: those on the log, but for the calls whose own write or
    flush failed. -/
def handedOver (r : JsonlRun) : Nat :=
  r.answered.zipIdx.countP fun (done, number) =>
    decide (done.1.json.line number ∈ r.log) && !ownFailure done.2

/-- **The contract of the log.** -/
structure Exact (r : JsonlRun) : Prop where
  ok : r.log.filter (fun line => decide (line ∈ r.okLines)) = r.okLines
  err : ∀ (number : Nat) (done : Answered) (e : FailedCall),
    r.answered[number]? = some done → done.2 = .error e →
    done.1.json.line number ∈ r.log → ownFailure done.2 = true
  written : r.writer.state.recordsWritten = r.handedOver

end JsonlRun

/-! ## 3. Bytes at the end of a file -/

section Disk

variable {disk : Disk} {path : Path} {bytes : List TaggedByte}

namespace Disk

theorem content_append (disk : Disk) (path path' : Path) (bytes : List TaggedByte) :
    (disk.append path bytes).content path' =
      if path' = path then disk.content path ++ bytes else disk.content path' := by
  unfold content append
  rw [SortedMap.lookup_insert]
  split <;> rfl

/-- The lines of a file stand before those of the later files. -/
theorem log_append (disk : Disk) (path : Path) (bytes : List TaggedByte) :
    ∃ before after, disk.log = before ++ lines isNewline (disk.content path) ++ after ∧
      (disk.append path bytes).log =
        before ++ lines isNewline (disk.content path ++ bytes) ++ after ∧
      ∀ line ∈ after, ∃ path', path < path' ∧ line ∈ lines isNewline (disk.content path') := by
  obtain ⟨before, after, hins, hafter, hold⟩ :=
    disk.entries_insert path (disk.content path ++ bytes)
  refine ⟨before.flatMap fun file => lines isNewline file.2,
    after.flatMap fun file => lines isNewline file.2, ?_, ?_, fun line hline => ?_⟩
  · rcases hold with ⟨old, hlook, hent⟩ | ⟨hlook, hent⟩
    · have hcontent : disk.content path = old := by
        unfold content
        rw [hlook]
        rfl
      unfold log
      rw [hent, hcontent, List.flatMap_append, List.flatMap_cons, List.append_assoc]
    · have hcontent : disk.content path = [] := by
        unfold content
        rw [hlook]
        rfl
      unfold log
      rw [hent, hcontent, List.flatMap_append, Lines.lines_nil, List.append_nil]
  · unfold log append
    rw [hins, List.flatMap_append, List.flatMap_cons, List.append_assoc]
  · obtain ⟨file, hfile, hline⟩ := List.mem_flatMap.mp hline
    refine ⟨file.1, hafter file hfile, ?_⟩
    have hmem : (file.1, file.2) ∈ disk.entries := by
      rcases hold with ⟨old, _, hent⟩ | ⟨_, hent⟩
      · rw [hent]
        exact List.mem_append_right _ (List.mem_cons_of_mem _ hfile)
      · rw [hent]
        exact List.mem_append_right _ hfile
    unfold content
    rw [SortedMap.mem_entries.mp hmem]
    exact hline

variable {wanted : List TaggedByte → Bool}

/-- **Bytes of no wanted line leave the wanted lines of the log alone.** -/
theorem filter_log_append (hends : ∀ x, wanted x = true → ∃ b ∈ x, isNewline b = true)
    (hpart : ∀ x, wanted x = true → ∀ b ∈ bytes, b ∉ x) :
    (disk.append path bytes).log.filter wanted = disk.log.filter wanted := by
  obtain ⟨before, after, hlog, hlog', _⟩ := disk.log_append path bytes
  rw [hlog, hlog']
  simp only [List.filter_append]
  rw [Lines.filter_lines_append hends hpart]

/-- **A line at the end of the last file that has wanted lines comes last.** -/
theorem filter_log_line (hends : ∀ x, wanted x = true → ∃ b ∈ x, isNewline b = true)
    (hpart : ∀ x, wanted x = true → ∀ b ∈ bytes, b ∉ x)
    (hwhole : EndsLine isNewline (disk.content path ++ bytes))
    (hlater : ∀ path', path < path' → ∀ b ∈ disk.content path', ∀ x, wanted x = true → b ∉ x)
    {line : List TaggedByte} (hline : lines isNewline line = [line]) (hw : wanted line = true) :
    (disk.append path (bytes ++ line)).log.filter wanted = disk.log.filter wanted ++ [line] := by
  obtain ⟨before, after, hlog, hlog', hafter⟩ := disk.log_append path (bytes ++ line)
  have hnone : after.filter wanted = [] := by
    refine List.filter_eq_nil_iff.mpr fun x hx hwx => ?_
    obtain ⟨path', hlt, hmem⟩ := hafter x hx
    obtain ⟨b, hb, _⟩ := hends x hwx
    exact hlater path' hlt b (Lines.mem_of_mem_lines hmem hb) x hwx hb
  rw [hlog, hlog', ← List.append_assoc, Lines.lines_append hwhole, hline]
  simp only [List.filter_append]
  rw [Lines.filter_lines_append hends hpart, hnone]
  simp [hw]

end Disk

end Disk

/-! ## 4. What the parts of a call do to the log -/

/-- A segment file that stands after every file of an earlier date. -/
theorem lt_segmentFilename {path : Path} {date : Nat} (h : (ofLex path).1 < date) (idx : Nat) :
    path < segmentFilename date idx := by
  unfold segmentFilename
  split_ifs
  · exact Prod.Lex.toLex_lt_toLex.mpr (.inl h)
  · exact Prod.Lex.toLex_lt_toLex.mpr (.inl h)

theorem segmentFilename_mono (date : Nat) {i j : Nat} (h : i ≤ j) :
    segmentFilename date i ≤ segmentFilename date j := by
  unfold segmentFilename
  split_ifs <;> refine Prod.Lex.toLex_le_toLex.mpr (.inr ⟨rfl, ?_⟩) <;> omega

theorem date_segmentFilename (date idx : Nat) : (ofLex (segmentFilename date idx)).1 = date := by
  unfold segmentFilename
  split_ifs <;> rfl

namespace JsonlWriter

/-- The bytes of a file that the open writer has not moved yet. -/
def pending (w : JsonlWriter) (path : Path) : List TaggedByte :=
  match w.state.writer with
  | some writer => if writer.path = path then writer.buffer else []
  | none => []

/-- What a file will hold once the open writer is flushed. -/
def stream (w : JsonlWriter) (path : Path) : List TaggedByte :=
  w.disk.content path ++ w.pending path

/-- A call has written to the file. -/
def Touched (w : JsonlWriter) (path : Path) : Prop := ∃ b ∈ w.stream path, b.1 ≠ none

/-- **The books of the writer**: the lines `ok` are on the log, every written byte is one of a call
    in `handled`, and what is still buffered is part of none of the lines. -/
structure Kept (ok : List (List TaggedByte)) (handled : Nat → Prop) (w : JsonlWriter) : Prop where
  lines : w.disk.log.filter (fun line => decide (line ∈ ok)) = ok
  tagged : ∀ path, ∀ b ∈ w.stream path, ∀ number, b.1 = some number → handled number
  buffered : ∀ writer, w.state.writer = some writer → ∀ b ∈ writer.buffer, ∀ x ∈ ok, b ∉ x

/-- The open file is the last one that was written to. -/
structure Placed (w : JsonlWriter) : Prop where
  last : ∀ writer, w.state.writer = some writer → ∃ date, w.state.currentDate = some date ∧
    writer.path = segmentFilename date w.state.segmentIndex ∧
    ∀ path, w.Touched path → path ≤ writer.path
  bound : w.state.segmentIndex ≤ maxSegmentIndex
  dated : ∀ path, w.Touched path →
    ∃ date, w.state.currentDate = some date ∧ (ofLex path).1 ≤ date

section Parts

variable {ok : List (List TaggedByte)} {handled : Nat → Prop} {w w' : JsonlWriter}

theorem mem_stream {path : Path} {b : TaggedByte} :
    b ∈ w.stream path ↔ b ∈ w.disk.content path ∨
      ∃ writer, w.state.writer = some writer ∧ writer.path = path ∧ b ∈ writer.buffer := by
  unfold stream pending
  rw [List.mem_append]
  refine or_congr_right ?_
  cases w.state.writer with
  | none => simp
  | some writer =>
      by_cases hp : writer.path = path
      · simp [hp]
      · simp [hp]

/-- The streams of one writer are among those of another. -/
def Within (w' w : JsonlWriter) : Prop := ∀ path, ∀ b ∈ w'.stream path, b ∈ w.stream path

theorem Within.trans {w'' : JsonlWriter} (h : Within w'' w') (h' : Within w' w) : Within w'' w :=
  fun path b hb => h' path b (h path b hb)

theorem Within.touched (h : Within w' w) {path : Path} (ht : w'.Touched path) :
    w.Touched path := by
  obtain ⟨b, hb, htag⟩ := ht
  exact ⟨b, h path b hb, htag⟩

/-- **Taking and flushing the writer** moves a part of what it has buffered, and closes it. -/
theorem takeAndFlush_spec (w : JsonlWriter) (outcome : FlushOutcome) :
    (w.takeAndFlush outcome).2.state = { w.state with writer := none } ∧
      (w.takeAndFlush outcome).2.config = w.config ∧
      ((w.takeAndFlush outcome).2.disk = w.disk ∨ ∃ writer moved,
        w.state.writer = some writer ∧ (w.takeAndFlush outcome).2.disk =
          w.disk.append writer.path (writer.buffer.take moved)) := by
  unfold takeAndFlush
  cases hw : w.state.writer with
  | none =>
      refine ⟨?_, rfl, .inl rfl⟩
      show w.state = { w.state with writer := none }
      rw [← hw]
  | some writer =>
      cases outcome with
      | done =>
          refine ⟨rfl, rfl, .inr ⟨writer, writer.buffer.length, rfl, ?_⟩⟩
          rw [List.take_length]
      | failed moved dropped => exact ⟨rfl, rfl, .inr ⟨writer, _, rfl, rfl⟩⟩

theorem within_takeAndFlush (w : JsonlWriter) (outcome : FlushOutcome) :
    Within (w.takeAndFlush outcome).2 w := by
  obtain ⟨hstate, _, hdisk⟩ := w.takeAndFlush_spec outcome
  intro path b hb
  rw [mem_stream, hstate] at hb
  have hcontent : b ∈ (w.takeAndFlush outcome).2.disk.content path :=
    hb.resolve_right fun ⟨_, h, _⟩ => nomatch h
  rw [mem_stream]
  rcases hdisk with hdisk | ⟨writer, moved, hw, hdisk⟩
  · rw [hdisk] at hcontent
    exact .inl hcontent
  · rw [hdisk, Disk.content_append] at hcontent
    split_ifs at hcontent with hp
    · rcases List.mem_append.mp hcontent with hb | hb
      · exact .inl (hp ▸ hb)
      · exact .inr ⟨writer, hw, hp.symm, List.mem_of_mem_take hb⟩
    · exact .inl hcontent

/-- Each of the lines ends with a newline. -/
def Closed (ok : List (List TaggedByte)) : Prop := ∀ x ∈ ok, ∃ b ∈ x, isNewline b = true

/-- Bytes of none of the lines leave them on the log. -/
theorem lines_append_foreign (hclosed : Closed ok)
    {disk : Disk} (h : disk.log.filter (fun line => decide (line ∈ ok)) = ok) (path : Path)
    {bytes : List TaggedByte} (hpart : ∀ b ∈ bytes, ∀ x ∈ ok, b ∉ x) :
    (disk.append path bytes).log.filter (fun line => decide (line ∈ ok)) = ok := by
  rw [Disk.filter_log_append (fun x hx => hclosed x (of_decide_eq_true hx))
    (fun x hx b hb => hpart b hb x (of_decide_eq_true hx))]
  exact h

theorem books_takeAndFlush (hclosed : Closed ok) (h : Kept ok handled w)
    (outcome : FlushOutcome) : Kept ok handled (w.takeAndFlush outcome).2 := by
  obtain ⟨hstate, _, hdisk⟩ := w.takeAndFlush_spec outcome
  refine ⟨?_, fun path b hb => h.tagged path b (within_takeAndFlush w outcome path b hb), ?_⟩
  · rcases hdisk with hdisk | ⟨writer, moved, hw, hdisk⟩
    · rw [hdisk]
      exact h.lines
    · rw [hdisk]
      exact lines_append_foreign hclosed h.lines _
        fun b hb => h.buffered writer hw b (List.mem_of_mem_take hb)
  · intro writer hw
    rw [hstate] at hw
    cases hw

theorem content_append_nil (disk : Disk) (path path' : Path) :
    (disk.append path []).content path' = disk.content path' := by
  rw [Disk.content_append, List.append_nil]
  split_ifs with h
  · rw [h]
  · rfl

/-- A writer that has just opened the segment of a date, with the files of another one. -/
structure Opened (w w' : JsonlWriter) (date idx : Nat) : Prop where
  content : ∀ path, w'.disk.content path = w.disk.content path
  writer : w'.state.writer = some ⟨segmentFilename date idx, []⟩
  currentDate : w'.state.currentDate = some date
  segmentIndex : w'.state.segmentIndex = idx
  recordsWritten : w'.state.recordsWritten = w.state.recordsWritten
  config : w'.config = w.config

theorem opened_openSegment (w : JsonlWriter) (io : IoOutcome) (date idx : Nat) :
    Opened w (w.openSegment io true date idx).2 date idx where
  content path := content_append_nil w.disk _ path
  writer := rfl
  currentDate := rfl
  segmentIndex := rfl
  recordsWritten := rfl
  config := rfl

theorem Opened.within {date idx : Nat} (h : Opened w w' date idx) : Within w' w := by
  intro path b hb
  rw [mem_stream] at hb ⊢
  rcases hb with hb | ⟨writer, hw, _, hb⟩
  · rw [h.content] at hb
    exact .inl hb
  · rw [h.writer] at hw
    cases hw
    exact absurd hb List.not_mem_nil

theorem books_openSegment (hclosed : Closed ok) (h : Kept ok handled w) (io : IoOutcome)
    (date idx : Nat) : Kept ok handled (w.openSegment io true date idx).2 := by
  have hopened := opened_openSegment w io date idx
  refine ⟨?_, fun path b hb => h.tagged path b (hopened.within path b hb), fun writer hw => ?_⟩
  · exact lines_append_foreign hclosed h.lines _ fun b hb => absurd hb List.not_mem_nil
  · rw [hopened.writer] at hw
    cases hw
    exact fun b hb => absurd hb List.not_mem_nil

/-- A segment of a date is resolved from the files of the date. -/
theorem resolveFrom_congr {disk disk' : Disk} {io : IoOutcome} {date : Nat}
    {limits : SegmentRotationLimits}
    (h : ∀ idx, disk.lookup (segmentFilename date idx) = disk'.lookup (segmentFilename date idx))
    (fuel idx : Nat) :
    resolveFrom disk io date limits fuel idx = resolveFrom disk' io date limits fuel idx := by
  induction fuel generalizing idx with
  | zero => rfl
  | succ fuel ih =>
      unfold resolveFrom Disk.content
      dsimp only
      rw [h idx, ih]

theorem resolveFrom_le (disk : Disk) (io : IoOutcome) (date : Nat)
    (limits : SegmentRotationLimits) (fuel idx : Nat) :
    resolveFrom disk io date limits fuel idx ≤ idx + fuel := by
  induction fuel generalizing idx with
  | zero => exact Nat.le_refl _
  | succ fuel ih =>
      have hnext := ih (idx + 1)
      unfold resolveFrom
      dsimp only
      split_ifs <;> omega

theorem daySegment_le (config : JsonlWriterConfig) (disk : Disk) (io : IoOutcome) (date : Nat) :
    daySegment config disk io date ≤ maxSegmentIndex := by
  unfold daySegment
  cases config.segmentRotation with
  | none => exact (by decide : 1 ≤ maxSegmentIndex)
  | some limits =>
      have hle := resolveFrom_le disk io date limits (maxSegmentIndex - 1) 1
      exact Nat.le_trans hle (by decide)

/-- What is moved into a file of another date does not change the segment of a date. -/
theorem daySegment_takeAndFlush (io : IoOutcome) {date : Nat} (outcome : FlushOutcome)
    (h : ∀ writer, w.state.writer = some writer → (ofLex writer.path).1 ≠ date) :
    daySegment w.config (w.takeAndFlush outcome).2.disk io date =
      daySegment w.config w.disk io date := by
  have hlookup : ∀ idx, (w.takeAndFlush outcome).2.disk.lookup (segmentFilename date idx) =
      w.disk.lookup (segmentFilename date idx) := by
    intro idx
    obtain ⟨_, _, hdisk⟩ := w.takeAndFlush_spec outcome
    rcases hdisk with hdisk | ⟨writer, moved, hw, hdisk⟩
    · rw [hdisk]
    · rw [hdisk, Disk.append, SortedMap.lookup_insert_ne]
      intro he
      exact h writer hw (by rw [← he, date_segmentFilename])
  unfold daySegment
  cases w.config.segmentRotation with
  | none => rfl
  | some limits => exact resolveFrom_congr hlookup _ _

/-- The segment that a day starts with. -/
def dayPath (w : JsonlWriter) (io : IoOutcome) (date : Nat) : Path :=
  segmentFilename date (daySegment w.config w.disk io date)

/-- Opening a day that failed leaves the writer closed. -/
structure DayFailed (w w' : JsonlWriter) : Prop where
  within : Within w' w
  writer : w'.state.writer = none
  currentDate : w'.state.currentDate = w.state.currentDate
  segmentIndex : w'.state.segmentIndex ≤ maxSegmentIndex
  recordsWritten : w'.state.recordsWritten = w.state.recordsWritten
  config : w'.config = w.config

/-- Opening a day that succeeded leaves the first free segment of the day open. -/
structure DayOpened (w w' : JsonlWriter) (io : IoOutcome) (date : Nat) : Prop where
  within : Within w' w
  writer : w'.state.writer = some ⟨w.dayPath io date, []⟩
  content : w'.disk.content (w.dayPath io date) = w.disk.content (w.dayPath io date)
  currentDate : w'.state.currentDate = some date
  segmentIndex : w'.state.segmentIndex = daySegment w.config w.disk io date
  recordsWritten : w'.state.recordsWritten = w.state.recordsWritten
  config : w'.config = w.config

/-- **The two ends of `open_day_locked`.** -/
theorem openDay_spec (hclosed : Closed ok) (h : Kept ok handled w)
    (hbound : w.state.segmentIndex ≤ maxSegmentIndex) (io : IoOutcome) {date : Nat}
    (hother : ∀ writer, w.state.writer = some writer → (ofLex writer.path).1 ≠ date) :
    Kept ok handled (w.openDay io date).2 ∧
      ((∃ e, (w.openDay io date).1 = .error e ∧ ownFailure (.error e) = false ∧
          DayFailed w (w.openDay io date).2) ∨
        ((w.openDay io date).1 = .ok () ∧ DayOpened w (w.openDay io date).2 io date)) := by
  have hkept := books_takeAndFlush hclosed h io.dayFlush
  have hwithin := within_takeAndFlush w io.dayFlush
  have hsegment := daySegment_takeAndFlush io io.dayFlush hother
  have hcontent : (w.takeAndFlush io.dayFlush).2.disk.content (w.dayPath io date) =
      w.disk.content (w.dayPath io date) := by
    obtain ⟨_, _, hdisk⟩ := w.takeAndFlush_spec io.dayFlush
    rcases hdisk with hdisk | ⟨writer, moved, hw, hdisk⟩
    · rw [hdisk]
    · rw [hdisk, Disk.content_append, if_neg]
      intro he
      exact hother writer hw (by rw [← he]; exact date_segmentFilename _ _)
  obtain ⟨hstate, hconfig, _⟩ := w.takeAndFlush_spec io.dayFlush
  unfold openDay
  generalize w.takeAndFlush io.dayFlush = taken at *
  obtain ⟨flushed, w₁⟩ := taken
  dsimp only at hkept hwithin hsegment hcontent hstate hconfig ⊢
  cases flushed with
  | false =>
      refine ⟨hkept, .inl ⟨.dayFlush, rfl, rfl, hwithin, ?_, ?_, ?_, ?_, hconfig⟩⟩
      · rw [hstate]
      · rw [hstate]
      · rw [hstate]
        exact hbound
      · rw [hstate]
  | true =>
      have hidx : daySegment w₁.config w₁.disk io date = daySegment w.config w.disk io date := by
        rw [hconfig, hsegment]
      dsimp only
      rw [hidx]
      let w₂ : JsonlWriter := { w₁ with
        state.segmentIndex := daySegment w.config w.disk io date
        state.segmentRecords := 0
        state.segmentBytes := 0 }
      have hsame : Within w₂ w := hwithin
      have hkept₂ : Kept ok handled w₂ := ⟨hkept.lines, hkept.tagged, hkept.buffered⟩
      cases hopen : io.dayOpen with
      | false =>
          refine ⟨hkept₂, .inl ⟨.dayOpen, rfl, rfl, hsame, ?_, ?_, daySegment_le _ _ _ _, ?_,
            hconfig⟩⟩
          · show w₁.state.writer = none
            rw [hstate]
          · show w₁.state.currentDate = w.state.currentDate
            rw [hstate]
          · show w₁.state.recordsWritten = w.state.recordsWritten
            rw [hstate]
      | true =>
          have hopened := opened_openSegment w₂ io date (daySegment w.config w.disk io date)
          refine ⟨books_openSegment hclosed hkept₂ io date _, .inr ⟨rfl,
            hopened.within.trans hsame, hopened.writer, ?_, hopened.currentDate,
            hopened.segmentIndex, ?_, hconfig⟩⟩
          · rw [← hcontent]
            exact hopened.content _
          · show w₁.state.recordsWritten = w.state.recordsWritten
            rw [hstate]

/-- **A rotation that succeeds** opens the next segment of the date. -/
theorem rotateSegment_spec (hclosed : Closed ok) (h : Kept ok handled w) {io : IoOutcome}
    (hflush : io.rotateFlush = .done) (hopen : io.rotateOpen = true) (date : Nat) :
    Kept ok handled (w.rotateSegment io date).2 ∧ (w.rotateSegment io date).1 = .ok () ∧
      Within (w.rotateSegment io date).2 w ∧
      (w.rotateSegment io date).2.config = w.config ∧
      (w.rotateSegment io date).2.state.writer =
        some ⟨segmentFilename date (min (w.state.segmentIndex + 1) maxSegmentIndex), []⟩ ∧
      (w.rotateSegment io date).2.state.currentDate = some date ∧
      (w.rotateSegment io date).2.state.segmentIndex =
        min (w.state.segmentIndex + 1) maxSegmentIndex ∧
      (w.rotateSegment io date).2.state.recordsWritten = w.state.recordsWritten := by
  have hkept := books_takeAndFlush hclosed h io.rotateFlush
  have hwithin := within_takeAndFlush w io.rotateFlush
  have hdone : (w.takeAndFlush io.rotateFlush).1 = true := by
    rw [hflush]
    unfold takeAndFlush
    split <;> rfl
  obtain ⟨hstate, hconfig, _⟩ := w.takeAndFlush_spec io.rotateFlush
  unfold rotateSegment
  generalize w.takeAndFlush io.rotateFlush = taken at *
  obtain ⟨flushed, w₁⟩ := taken
  dsimp only at hkept hwithin hstate hconfig hdone ⊢
  subst hdone
  dsimp only
  have hidx : w₁.state.segmentIndex = w.state.segmentIndex := by rw [hstate]
  let w₂ : JsonlWriter := { w₁ with
    state.segmentIndex := min (w₁.state.segmentIndex + 1) maxSegmentIndex
    state.segmentRecords := 0
    state.segmentBytes := 0 }
  have hsame : Within w₂ w := hwithin
  have hkept₂ : Kept ok handled w₂ := ⟨hkept.lines, hkept.tagged, hkept.buffered⟩
  rw [hopen, ← hidx]
  have hopened := opened_openSegment w₂ io date (min (w₁.state.segmentIndex + 1) maxSegmentIndex)
  refine ⟨books_openSegment hclosed hkept₂ io date _, rfl, hopened.within.trans hsame, hconfig,
    hopened.writer, hopened.currentDate, hopened.segmentIndex, ?_⟩
  show w₁.state.recordsWritten = w.state.recordsWritten
  rw [hstate]

/-- The lines of some of the first calls, each with its newline. -/
structure LinesBefore (number : Nat) (ok : List (List TaggedByte)) : Prop where
  closed : Closed ok
  tags : ∀ x ∈ ok, ∀ b ∈ x, ∃ earlier < number, b.1 = some earlier

theorem tag_line {json : Json} {number : Nat} {b : TaggedByte} (h : b ∈ json.line number) :
    b.1 = some number := by
  obtain ⟨byte, _, rfl⟩ := List.mem_map.mp h
  rfl

theorem newline_mem_line (json : Json) (number : Nat) : (some number, newline) ∈ json.line number :=
  List.mem_map_of_mem (List.mem_append_right _ List.mem_cons_self)

/-- The line of a call is one line. -/
theorem lines_line (json : Json) (number : Nat) :
    lines isNewline (json.line number) = [json.line number] := by
  unfold Json.line
  rw [List.map_append, List.map_singleton]
  refine Lines.lines_closed (fun b hb => ?_) rfl
  obtain ⟨byte, hbyte, rfl⟩ := List.mem_map.mp hb
  refine Bool.eq_false_iff.mpr fun he => json.oneLine ?_
  rw [← eq_of_beq he]
  exact hbyte

theorem mem_stream_drain {writer : BufWriter} {moved : Nat} {path : Path} {b : TaggedByte}
    (hb : b ∈ (w.drain writer moved).stream path) :
    b ∈ w.disk.content path ∨ (writer.path = path ∧ b ∈ writer.buffer) := by
  rcases mem_stream.mp hb with hb | ⟨open', hopen, hpath, hb⟩
  · have hcontent : b ∈ (w.disk.append writer.path (writer.buffer.take moved)).content path := hb
    rw [Disk.content_append] at hcontent
    split_ifs at hcontent with hp
    · rcases List.mem_append.mp hcontent with hb | hb
      · exact .inl (hp ▸ hb)
      · exact .inr ⟨hp.symm, List.mem_of_mem_take hb⟩
    · exact .inl hcontent
  · cases hopen
    exact .inr ⟨hpath, List.mem_of_mem_drop hb⟩

/-- Bytes of none of the lines may be buffered and moved. -/
theorem books_drain (hclosed : Closed ok) (h : Kept ok handled w) {writer : BufWriter}
    (moved : Nat) (hpart : ∀ b ∈ writer.buffer, ∀ x ∈ ok, b ∉ x) {handled' : Nat → Prop}
    (hold : ∀ number, handled number → handled' number)
    (htag : ∀ b ∈ writer.buffer, ∀ number, b.1 = some number → handled' number) :
    Kept ok handled' (w.drain writer moved) where
  lines := lines_append_foreign hclosed h.lines _
    fun b hb => hpart b (List.mem_of_mem_take hb)
  tagged path b hb number htagged := by
    rcases mem_stream_drain hb with hb | ⟨_, hb⟩
    · exact hold number (h.tagged path b (List.mem_append_left _ hb) number htagged)
    · exact htag b hb number htagged
  buffered open' hopen b hb := by
    cases hopen
    exact hpart b (List.mem_of_mem_drop hb)

/-- **A line that is written and flushed** is the last one of the log. -/
theorem books_written {number : Nat} (hok : LinesBefore number ok) (h : Kept ok handled w)
    (hfresh : ¬ handled number) {writer : BufWriter} (hw : w.state.writer = some writer)
    (hwhole : EndsLine isNewline (w.disk.content writer.path ++ writer.buffer))
    (hlast : ∀ path, w.Touched path → path ≤ writer.path) (json : Json) :
    Kept (ok ++ [json.line number]) (fun k => handled k ∨ k = number)
      (w.drain { writer with buffer := writer.buffer ++ json.line number }
        (writer.buffer ++ json.line number).length) := by
  have hbuffer : ∀ b ∈ writer.buffer, b ∈ w.stream writer.path := fun b hb =>
    mem_stream.mpr (.inr ⟨writer, hw, rfl, hb⟩)
  have hclosed : Closed (ok ++ [json.line number]) := by
    intro x hx
    rcases List.mem_append.mp hx with hx | hx
    · exact hok.closed x hx
    · rw [List.mem_singleton.mp hx]
      exact ⟨_, newline_mem_line json number, rfl⟩
  refine ⟨?_, fun path b hb k htag => ?_, fun open' hopen b hb => ?_⟩
  · show (w.disk.append writer.path ((writer.buffer ++ json.line number).take
      (writer.buffer ++ json.line number).length)).log.filter _ = _
    rw [List.take_length, Disk.filter_log_line (fun x hx => hclosed x (of_decide_eq_true hx))
      ?_ hwhole ?_ (lines_line json number) (by simp)]
    · have hsame : ∀ x ∈ w.disk.log, decide (x ∈ ok ++ [json.line number]) = decide (x ∈ ok) := by
        intro x hx
        have hne : x ≠ json.line number := by
          rintro rfl
          obtain ⟨file, hfile, hline⟩ := List.mem_flatMap.mp hx
          have hcontent : w.disk.content file.1 = file.2 := by
            unfold Disk.content
            rw [SortedMap.mem_entries.mp hfile]
            rfl
          have hbyte : (some number, newline) ∈ w.disk.content file.1 := by
            rw [hcontent]
            exact Lines.mem_of_mem_lines hline (newline_mem_line json number)
          exact hfresh (h.tagged file.1 _ (List.mem_append_left _ hbyte) number rfl)
        simp [hne]
      rw [List.filter_congr hsame, h.lines]
    · intro x hx b hb
      rcases List.mem_append.mp (of_decide_eq_true hx) with hx | hx
      · exact h.buffered writer hw b hb x hx
      · rw [List.mem_singleton.mp hx]
        exact fun hline => hfresh (h.tagged _ b (hbuffer b hb) number (tag_line hline))
    · intro path hlt b hb x hx hbx
      have htouched : w.Touched path := by
        refine ⟨b, List.mem_append_left _ hb, ?_⟩
        rcases List.mem_append.mp (of_decide_eq_true hx) with hx | hx
        · obtain ⟨earlier, _, htag⟩ := hok.tags x hx b hbx
          rw [htag]
          exact Option.some_ne_none _
        · rw [List.mem_singleton.mp hx] at hbx
          rw [tag_line hbx]
          exact Option.some_ne_none _
      exact absurd hlt (not_lt.mpr (hlast path htouched))
  · rcases mem_stream_drain hb with hb | ⟨_, hb⟩
    · exact .inl (h.tagged path b (List.mem_append_left _ hb) k htag)
    · rcases List.mem_append.mp hb with hb | hb
      · exact .inl (h.tagged _ b (hbuffer b hb) k htag)
      · rw [tag_line hb] at htag
        exact .inr (Option.some.inj htag).symm
  · cases hopen
    rw [List.drop_length] at hb
    exact absurd hb List.not_mem_nil

/-- **The ends of the write and its flush.** -/
theorem writeLine_spec {number : Nat} (hok : LinesBefore number ok) (h : Kept ok handled w)
    (hfresh : ¬ handled number) {writer : BufWriter} (hw : w.state.writer = some writer)
    (hwhole : EndsLine isNewline (w.disk.content writer.path ++ writer.buffer))
    (hlast : ∀ path, w.Touched path → path ≤ writer.path)
    (hflush : w.config.flushEachWrite = true) (io : IoOutcome) (json : Json) :
    ∃ buffer, (w.writeLine io (json.line number)).2.state =
        { w.state with writer := some ⟨writer.path, buffer⟩ } ∧
      (w.writeLine io (json.line number)).2.config = w.config ∧
      (∀ path, (w.writeLine io (json.line number)).2.Touched path →
        w.Touched path ∨ path = writer.path) ∧
      ((∃ e, (w.writeLine io (json.line number)).1 = .error e ∧ ownFailure (.error e) = true ∧
          Kept ok (fun k => handled k ∨ k = number) (w.writeLine io (json.line number)).2) ∨
        ((w.writeLine io (json.line number)).1 = .ok () ∧
          Kept (ok ++ [json.line number]) (fun k => handled k ∨ k = number)
            (w.writeLine io (json.line number)).2)) := by
  have hbuffer : ∀ b ∈ writer.buffer, b ∈ w.stream writer.path := fun b hb =>
    mem_stream.mpr (.inr ⟨writer, hw, rfl, hb⟩)
  have htouched : ∀ (part : List TaggedByte) (moved : Nat) (path : Path),
      (w.drain { writer with buffer := writer.buffer ++ part } moved).Touched path →
      w.Touched path ∨ path = writer.path := by
    rintro part moved path ⟨b, hb, htag⟩
    rcases mem_stream_drain hb with hb | ⟨hp, _⟩
    · exact .inl ⟨b, List.mem_append_left _ hb, htag⟩
    · exact .inr hp.symm
  -- a line of which a part is taken and not counted
  have hpart : ∀ part, (∀ b ∈ part, b ∈ json.line number) → ∀ moved,
      Kept ok (fun k => handled k ∨ k = number)
        (w.drain { writer with buffer := writer.buffer ++ part } moved) := by
    intro part hsub moved
    refine books_drain hok.closed h moved (fun b hb x hx => ?_) (fun k hk => .inl hk)
      fun b hb k htag => ?_
    · rcases List.mem_append.mp hb with hb | hb
      · exact h.buffered writer hw b hb x hx
      · intro hbx
        obtain ⟨earlier, hlt, htag⟩ := hok.tags x hx b hbx
        rw [tag_line (hsub b hb)] at htag
        exact absurd (Option.some.inj htag) (by omega)
    · rcases List.mem_append.mp hb with hb | hb
      · exact .inl (h.tagged _ b (hbuffer b hb) k htag)
      · rw [tag_line (hsub b hb)] at htag
        exact .inr (Option.some.inj htag).symm
  unfold writeLine
  rw [hw]
  dsimp only
  cases io.write with
  | failed taken moved =>
      refine ⟨_, rfl, rfl, htouched _ _, .inl ⟨.write, rfl, rfl, hpart _ (fun b hb => ?_) moved⟩⟩
      exact List.mem_of_mem_dropLast (List.mem_of_mem_take hb)
  | done moved =>
      dsimp only
      rw [if_pos hflush]
      cases io.flush with
      | done =>
          exact ⟨_, rfl, rfl, htouched _ _, .inr ⟨rfl,
            books_written hok h hfresh hw hwhole hlast json⟩⟩
      | failed flushed dropped =>
          exact ⟨_, rfl, rfl, htouched _ _, .inl ⟨.flush, rfl, rfl,
            hpart _ (fun b hb => hb) _⟩⟩

end Parts

/-- The file that the line of a call goes to. -/
def target (w : JsonlWriter) (call : WriteCall) : Path :=
  match w.state.writer with
  | some writer =>
      if w.state.currentDate = some call.today then writer.path
      else w.dayPath call.io call.today
  | none => w.dayPath call.io call.today

/-- The writer has the last segment of the date open. -/
structure Ready (w : JsonlWriter) (today : Nat) (writer : BufWriter) : Prop where
  isOpen : w.state.writer = some writer
  date : w.state.currentDate = some today
  path : writer.path = segmentFilename today w.state.segmentIndex
  bound : w.state.segmentIndex ≤ maxSegmentIndex
  last : ∀ path, w.Touched path → path ≤ writer.path

theorem date_le_of_le {path : Path} {date : Nat} (idx : Nat)
    (h : path ≤ segmentFilename date idx) :
    (ofLex path).1 ≤ date := by
  by_contra hlt
  have hgt : segmentFilename date idx < path := by
    have hdate := date_segmentFilename date idx
    refine Prod.Lex.lt_iff.mpr (.inl ?_)
    omega
  exact absurd h (not_le.mpr hgt)

theorem Ready.ne_none {w : JsonlWriter} {today : Nat} {writer : BufWriter}
    (h : w.Ready today writer) : w.state.writer ≠ none := by
  rw [h.isOpen]
  exact Option.some_ne_none _

theorem Ready.placed {w : JsonlWriter} {today : Nat} {writer : BufWriter}
    (h : w.Ready today writer) : w.Placed where
  last writer' hw := by
    rw [h.isOpen] at hw
    cases hw
    exact ⟨today, h.date, h.path, h.last⟩
  bound := h.bound
  dated path ht := by
    refine ⟨today, h.date, date_le_of_le w.state.segmentIndex ?_⟩
    rw [← h.path]
    exact h.last path ht

end JsonlWriter

/-! ## 5. Runs -/

namespace JsonlRun

open JsonlWriter

/-- The call wrote: it returned `Ok`, or its own write or flush failed. -/
def Handled (r : JsonlRun) (number : Nat) : Prop :=
  ∃ done : Answered, r.answered[number]? = some done ∧
    (done.2 = .ok () ∨ ownFailure done.2 = true)

/-- **The books of a run.** -/
structure Books (r : JsonlRun) : Prop where
  kept : Kept r.okLines r.Handled r.writer
  placed : r.writer.Placed
  /-- A closed writer has been left behind by the clock. -/
  closed : r.writer.state.writer = none → ∀ date, r.writer.state.currentDate = some date →
    ∃ done ∈ r.answered, date < done.1.today
  dated : ∀ date, r.writer.state.currentDate = some date → ∃ done ∈ r.answered, date ≤ done.1.today
  written : r.writer.state.recordsWritten = r.okLines.length
  flushing : r.writer.config.flushEachWrite = true

/-- **Nothing disturbs the call**: the clock does not go back, the file that its line goes to ends
    with a newline, and if a rotation follows, it succeeds. -/
structure Undisturbed (r : JsonlRun) (call : WriteCall) : Prop where
  dates : ∀ done ∈ r.answered, done.1.today ≤ call.today
  whole : EndsLine isNewline (r.writer.stream (r.writer.target call))
  rotateFlush : call.io.rotateFlush = .done
  rotateOpen : call.io.rotateOpen = true

section Run

variable {r : JsonlRun} {call : WriteCall}

/-- The line of an answer. -/
def okLine (done : Answered) (number : Nat) : Option (List TaggedByte) :=
  match done.2 with
  | .ok () => some (done.1.json.line number)
  | .error _ => none

theorem okLines_eq (r : JsonlRun) :
    r.okLines = r.answered.zipIdx.filterMap fun e => okLine e.1 e.2 := rfl

theorem okLines_concat (writer writer' : JsonlWriter) (answered : List Answered)
    (done : Answered) : okLines ⟨writer, answered ++ [done]⟩ =
      okLines ⟨writer', answered⟩ ++ (okLine done answered.length).toList := by
  rw [okLines_eq, okLines_eq, List.zipIdx_append, List.filterMap_append, Nat.zero_add]
  refine congrArg _ ?_
  show ([(done, answered.length)] : List (Answered × Nat)).filterMap _ = _
  rw [List.filterMap_cons, List.filterMap_nil]
  cases okLine done answered.length <;> rfl

theorem linesBefore (r : JsonlRun) : LinesBefore r.answered.length r.okLines := by
  have hline : ∀ x ∈ r.okLines, ∃ (json : Json) (number : Nat), number < r.answered.length ∧
      x = json.line number := by
    intro x hx
    obtain ⟨⟨done, number⟩, hmem, hx⟩ := List.mem_filterMap.mp hx
    have hlt := (List.mem_zipIdx hmem).2.1
    refine ⟨done.1.json, number, by omega, ?_⟩
    change okLine done number = some x at hx
    unfold okLine at hx
    split at hx
    · exact (Option.some.inj hx).symm
    · cases hx
  refine ⟨fun x hx => ?_, fun x hx b hb => ?_⟩
  · obtain ⟨json, number, _, rfl⟩ := hline x hx
    exact ⟨_, newline_mem_line json number, rfl⟩
  · obtain ⟨json, number, hlt, rfl⟩ := hline x hx
    exact ⟨number, hlt, tag_line hb⟩

theorem not_handled_next (r : JsonlRun) : ¬ r.Handled r.answered.length := by
  rintro ⟨done, hget, _⟩
  rw [List.getElem?_eq_none (Nat.le_refl _)] at hget
  cases hget

theorem handled_concat {writer : JsonlWriter} {done : Answered} {number : Nat}
    (h : r.Handled number) : Handled ⟨writer, r.answered ++ [done]⟩ number := by
  obtain ⟨old, hget, hdone⟩ := h
  obtain ⟨hlt, _⟩ := List.getElem?_eq_some_iff.mp hget
  exact ⟨old, (List.getElem?_append_left hlt).trans hget, hdone⟩

theorem handled_last {writer : JsonlWriter} {done : Answered}
    (h : done.2 = .ok () ∨ ownFailure done.2 = true) :
    Handled ⟨writer, r.answered ++ [done]⟩ r.answered.length :=
  ⟨done, List.getElem?_concat_length, h⟩

/-- **What a call finds**: the day cannot be opened, or the last segment of the date is open and
    whole. -/
theorem opened_cases (h : Books r) (hu : Undisturbed r call) :
    let opened := if r.writer.state.currentDate ≠ some call.today then
      r.writer.openDay call.io call.today else (.ok (), r.writer)
    Kept r.okLines r.Handled opened.2 ∧
      opened.2.state.recordsWritten = r.writer.state.recordsWritten ∧
      opened.2.config = r.writer.config ∧
      ((∃ e, opened.1 = .error e ∧ ownFailure (.error e) = false ∧
          r.writer.state.currentDate ≠ some call.today ∧ DayFailed r.writer opened.2) ∨
        (opened.1 = .ok () ∧ ∃ writer, opened.2.Ready call.today writer ∧
          EndsLine isNewline (opened.2.disk.content writer.path ++ writer.buffer))) := by
  have hwhole := hu.whole
  unfold target at hwhole
  by_cases hdate : r.writer.state.currentDate = some call.today
  · rw [if_neg (not_not.mpr hdate)]
    refine ⟨h.kept, rfl, rfl, .inr ⟨rfl, ?_⟩⟩
    cases hw : r.writer.state.writer with
    | none =>
        obtain ⟨done, hmem, hlt⟩ := h.closed hw _ hdate
        exact absurd (hu.dates done hmem) (by omega)
    | some writer =>
        obtain ⟨date, hcur, hpath, hlast⟩ := h.placed.last writer hw
        rw [hdate] at hcur
        cases hcur
        refine ⟨writer, ⟨hw, hdate, hpath, h.placed.bound, hlast⟩, ?_⟩
        rw [hw] at hwhole
        dsimp only at hwhole
        rw [if_pos hdate] at hwhole
        unfold stream pending at hwhole
        rw [hw] at hwhole
        simpa using hwhole
  · rw [if_pos hdate]
    have hother : ∀ writer, r.writer.state.writer = some writer →
        (ofLex writer.path).1 ≠ call.today := by
      intro writer hw he
      obtain ⟨date, hcur, hpath, _⟩ := h.placed.last writer hw
      rw [hpath, date_segmentFilename] at he
      exact hdate (by rw [hcur, he])
    obtain ⟨hkept, hends⟩ := openDay_spec (linesBefore r).closed h.kept h.placed.bound
      call.io hother
    rcases hends with ⟨e, he, hown, hfailed⟩ | ⟨hok, hopened⟩
    · exact ⟨hkept, hfailed.recordsWritten, hfailed.config, .inl ⟨e, he, hown, hdate, hfailed⟩⟩
    · refine ⟨hkept, hopened.recordsWritten, hopened.config, .inr ⟨hok, _, ⟨hopened.writer,
        hopened.currentDate, ?_, ?_, fun path ht => ?_⟩, ?_⟩⟩
      · rw [hopened.segmentIndex]
        rfl
      · rw [hopened.segmentIndex]
        exact daySegment_le _ _ _ _
      · obtain ⟨date, hcur, hle⟩ := h.placed.dated path (hopened.within.touched ht)
        obtain ⟨done, hmem, hdone⟩ := h.dated date hcur
        have hle' := hu.dates done hmem
        have hne : date ≠ call.today := fun he => hdate (he ▸ hcur)
        have hlt : (ofLex path).1 < call.today := by omega
        exact le_of_lt (lt_segmentFilename hlt _)
      · have hpending : r.writer.pending (r.writer.dayPath call.io call.today) = [] := by
          unfold pending
          cases hw : r.writer.state.writer with
          | none => rfl
          | some writer =>
              refine if_neg fun he => hother writer hw ?_
              rw [he]
              exact date_segmentFilename _ _
        have htarget : EndsLine isNewline
            (r.writer.stream (r.writer.dayPath call.io call.today)) := by
          cases hw : r.writer.state.writer with
          | none =>
              rw [hw] at hwhole
              exact hwhole
          | some writer =>
              rw [hw] at hwhole
              dsimp only at hwhole
              rwa [if_neg hdate] at hwhole
        unfold stream at htarget
        rw [hpending] at htarget
        rw [hopened.content]
        exact htarget

/-- The books of the run behind the call, from those of the writer. -/
theorem books_concat (h : Books r) (hu : Undisturbed r call) {answer : Except FailedCall Unit}
    {w : JsonlWriter} {ok : List (List TaggedByte)} {handled : Nat → Prop}
    (hok : ok = r.okLines ++ (okLine (call, answer) r.answered.length).toList)
    (hkept : Kept ok handled w)
    (hhandled : ∀ number, handled number → Handled ⟨w, r.answered ++ [(call, answer)]⟩ number)
    (hplaced : w.Placed) (hdate : w.state.currentDate = some call.today ∨
      w.state.writer = none ∧ w.state.currentDate = r.writer.state.currentDate ∧
        w.state.currentDate ≠ some call.today)
    (hopen : w.state.currentDate = some call.today → w.state.writer ≠ none)
    (hwritten : w.state.recordsWritten = ok.length) (hconfig : w.config = r.writer.config) :
    Books ⟨w, r.answered ++ [(call, answer)]⟩ := by
  have hlines : okLines ⟨w, r.answered ++ [(call, answer)]⟩ = ok :=
    (okLines_concat w r.writer r.answered (call, answer)).trans hok.symm
  have hlast : (call, answer) ∈ r.answered ++ [(call, answer)] :=
    List.mem_append_right _ List.mem_cons_self
  refine ⟨?_, hplaced, fun hnone date hcur => ?_, fun date hcur => ?_, ?_, ?_⟩
  · rw [hlines]
    exact ⟨hkept.lines, fun path b hb number htag =>
      hhandled number (hkept.tagged path b hb number htag), hkept.buffered⟩
  · rcases hdate with hdate | ⟨_, hsame, hne⟩
    · exact absurd hnone (hopen hdate)
    · obtain ⟨done, hmem, hle⟩ := h.dated date (hsame ▸ hcur)
      have hle' := hu.dates done hmem
      have hne' : date ≠ call.today := fun he => hne (he ▸ hcur)
      exact ⟨_, hlast, by show date < call.today; omega⟩
  · rcases hdate with hdate | ⟨_, hsame, _⟩
    · rw [hdate] at hcur
      cases hcur
      exact ⟨_, hlast, Nat.le_refl _⟩
    · obtain ⟨done, hmem, hle⟩ := h.dated date (hsame ▸ hcur)
      exact ⟨done, List.mem_append_left _ hmem, hle⟩
  · rw [hlines]
    exact hwritten
  · show w.config.flushEachWrite = true
    rw [hconfig]
    exact h.flushing

/-- **A call that nothing disturbs keeps the books.** -/
theorem books_step (h : Books r) (hu : Undisturbed r call) : Books (r.step call) := by
  obtain ⟨hkept, hcount, hconfig, hends⟩ := opened_cases h hu
  unfold step writeJsonLine
  dsimp only
  generalize (if r.writer.state.currentDate ≠ some call.today then
    r.writer.openDay call.io call.today else (.ok (), r.writer)) = opened at *
  obtain ⟨answer, w⟩ := opened
  dsimp only at hkept hcount hconfig hends
  rcases hends with ⟨e, rfl, hown, hdate, hfailed⟩ | ⟨rfl, writer, hready, hwhole⟩
  · -- the day could not be opened
    refine books_concat h hu (by simp [okLine]) hkept
      (fun number hn => handled_concat hn) ⟨fun writer hw => ?_, hfailed.segmentIndex, ?_⟩
      (.inr ⟨hfailed.writer, hfailed.currentDate, ?_⟩) ?_ ?_ hconfig
    · rw [hfailed.writer] at hw
      cases hw
    · intro path ht
      rw [hfailed.currentDate]
      exact h.placed.dated path (hfailed.within.touched ht)
    · rw [hfailed.currentDate]
      exact hdate
    · intro hcur
      rw [hfailed.currentDate] at hcur
      exact absurd hcur hdate
    · rw [hcount]
      exact h.written
  dsimp only
  obtain ⟨buffer, hstate, hconfig', htouched, hend⟩ := writeLine_spec (linesBefore r) hkept
    r.not_handled_next hready.isOpen hwhole hready.last (hconfig ▸ h.flushing) call.io call.json
  generalize w.writeLine call.io (call.json.line r.answered.length) = wrote at *
  obtain ⟨answer, w'⟩ := wrote
  dsimp only at hstate hconfig' htouched hend
  have hready' : w'.Ready call.today ⟨writer.path, buffer⟩ := by
    refine ⟨by rw [hstate], by rw [hstate]; exact hready.date, ?_, ?_, fun path ht => ?_⟩
    · rw [hstate]
      exact hready.path
    · rw [hstate]
      exact hready.bound
    · rcases htouched path ht with ht | rfl
      · exact hready.last path ht
      · exact le_refl _
  have hrecords : w'.state.recordsWritten = r.okLines.length := by
    rw [hstate]
    exact hcount.trans h.written
  rcases hend with ⟨e, rfl, hown, hkept'⟩ | ⟨rfl, hkept'⟩
  · -- the write or its flush failed
    refine books_concat h hu (by simp [okLine]) hkept' (fun number hn => ?_)
      hready'.placed (.inl hready'.date) (fun _ => hready'.ne_none) hrecords
      (hconfig'.trans hconfig)
    rcases hn with hn | rfl
    · exact handled_concat hn
    · exact handled_last (.inr hown)
  dsimp only
  have hcounted : Kept (r.okLines ++ [call.json.line r.answered.length])
      (fun k => r.Handled k ∨ k = r.answered.length)
      (w'.count (call.json.bytes.length + 1)) :=
    ⟨hkept'.lines, hkept'.tagged, hkept'.buffered⟩
  have hready'' : (w'.count (call.json.bytes.length + 1)).Ready call.today
      ⟨writer.path, buffer⟩ :=
    ⟨hready'.isOpen, hready'.date, hready'.path, hready'.bound, hready'.last⟩
  have hlength : (w'.count (call.json.bytes.length + 1)).state.recordsWritten =
      (r.okLines ++ [call.json.line r.answered.length]).length := by
    rw [List.length_append, List.length_singleton]
    exact congrArg (· + 1) hrecords
  have hsetup : (w'.count (call.json.bytes.length + 1)).config = r.writer.config :=
    hconfig'.trans hconfig
  have hhandled : ∀ (w : JsonlWriter) (number : Nat),
      (r.Handled number ∨ number = r.answered.length) →
      Handled ⟨w, r.answered ++ [(call, .ok ())]⟩ number := by
    rintro w number (hn | rfl)
    · exact handled_concat hn
    · exact handled_last (.inl rfl)
  generalize w'.count (call.json.bytes.length + 1) = counted at *
  have hclosed : Closed (r.okLines ++ [call.json.line r.answered.length]) := by
    intro x hx
    rcases List.mem_append.mp hx with hx | hx
    · exact (linesBefore r).closed x hx
    · rw [List.mem_singleton.mp hx]
      exact ⟨_, newline_mem_line _ _, rfl⟩
  split
  · -- the next segment is opened
    obtain ⟨hkept₂, hok, hwithin, hconfig₂, hopen, hcur, hidx, hsame⟩ :=
      rotateSegment_spec hclosed hcounted hu.rotateFlush hu.rotateOpen call.today
    generalize counted.rotateSegment call.io call.today = rotated at *
    obtain ⟨answer, w₂⟩ := rotated
    dsimp only at hkept₂ hok hwithin hconfig₂ hopen hcur hidx hsame ⊢
    subst hok
    have hbound : w₂.state.segmentIndex ≤ maxSegmentIndex := by
      rw [hidx]
      exact Nat.min_le_right _ _
    have hnext : counted.state.segmentIndex ≤ w₂.state.segmentIndex := by
      rw [hidx]
      exact le_min (Nat.le_succ _) hready''.bound
    rw [← hidx] at hopen
    have hready₂ : w₂.Ready call.today
        ⟨segmentFilename call.today w₂.state.segmentIndex, []⟩ := by
      refine ⟨hopen, hcur, rfl, hbound, fun path ht => ?_⟩
      have hle : path ≤ segmentFilename call.today counted.state.segmentIndex := by
        rw [← hready''.path]
        exact hready''.last path (hwithin.touched ht)
      exact hle.trans (segmentFilename_mono _ hnext)
    exact books_concat h hu (by simp [okLine]) hkept₂ (hhandled w₂) hready₂.placed
      (.inl hcur) (fun _ => hready₂.ne_none) (hsame.trans hlength) (hconfig₂.trans hsetup)
  · exact books_concat h hu (by simp [okLine]) hcounted (hhandled counted) hready''.placed
      (.inl hready''.date) (fun _ => hready''.ne_none) hlength hsetup

/-- No call has written to the files of a new writer. -/
theorem books_start {config : JsonlWriterConfig} (hflush : config.flushEachWrite = true)
    (files : SortedMap Path (List UInt8)) : Books (start config files) := by
  have hclean : ∀ path, ∀ b ∈ (start config files).writer.stream path, b.1 = none := by
    intro path b hb
    rcases mem_stream.mp hb with hb | ⟨_, hw, _⟩
    · unfold Disk.content at hb
      cases hlook : (start config files).writer.disk.lookup path with
      | none =>
          rw [hlook] at hb
          cases hb
      | some content =>
          rw [hlook] at hb
          obtain ⟨file, _, he⟩ := List.mem_map.mp (SortedMap.mem_entries.mpr hlook)
          cases he
          obtain ⟨byte, _, rfl⟩ := List.mem_map.mp hb
          rfl
    · cases hw
  have huntouched : ∀ path, ¬ (start config files).writer.Touched path := fun path ht => by
    obtain ⟨b, hb, htag⟩ := ht
    exact htag (hclean path b hb)
  have hnone : ∀ {A : Type} {a : A} {P : Prop}, (none : Option A) = some a → P := fun h => nomatch h
  refine ⟨⟨?_, fun path b hb number htag => ?_, fun _ hw => hnone hw⟩,
    ⟨fun _ hw => hnone hw, (by decide : 1 ≤ maxSegmentIndex), fun path ht =>
      absurd ht (huntouched path)⟩, fun _ _ hcur => hnone hcur, fun _ hcur => hnone hcur, rfl,
    hflush⟩
  · exact List.filter_eq_nil_iff.mpr fun x _ hx => absurd (of_decide_eq_true hx) List.not_mem_nil
  · rw [hclean path b hb] at htag
    cases htag

/-- The line of an answer is on the log exactly when the call returned `Ok`, its own failures
    apart. -/
theorem exact_of_books (h : Books r) : Exact r := by
  have hhandled : ∀ (number : Nat) (done : Answered), r.answered[number]? = some done →
      done.1.json.line number ∈ r.log → done.2 = .ok () ∨ ownFailure done.2 = true := by
    intro number done hget hline
    obtain ⟨file, hfile, hmem⟩ := List.mem_flatMap.mp hline
    have hcontent : r.writer.disk.content file.1 = file.2 := by
      unfold Disk.content
      rw [SortedMap.mem_entries.mp hfile]
      rfl
    have hbyte : (some number, newline) ∈ r.writer.stream file.1 := by
      refine List.mem_append_left _ ?_
      rw [hcontent]
      exact Lines.mem_of_mem_lines hmem (newline_mem_line _ _)
    obtain ⟨done', hget', hdone⟩ := h.kept.tagged file.1 _ hbyte number rfl
    rw [hget] at hget'
    cases hget'
    exact hdone
  have hlogged : ∀ x ∈ r.okLines, x ∈ r.log := by
    intro x hx
    rw [← h.kept.lines] at hx
    exact List.mem_of_mem_filter hx
  refine ⟨h.kept.lines, fun number done e hget he hline => ?_, ?_⟩
  · refine (hhandled number done hget hline).resolve_left fun hok => ?_
    rw [he] at hok
    cases hok
  · rw [h.written, okLines_eq, List.length_filterMap_eq_countP]
    refine List.countP_congr fun e hmem => ?_
    obtain ⟨done, number⟩ := e
    have hget : r.answered[number]? = some done := List.mem_zipIdx_iff_getElem?.mp hmem
    have hok : okLine done number = some (done.1.json.line number) →
        done.1.json.line number ∈ r.log := fun ho =>
      hlogged _ (List.mem_filterMap.mpr ⟨(done, number), hmem, ho⟩)
    have hcases := hhandled number done hget
    obtain ⟨call, answer⟩ := done
    cases answer with
    | ok u =>
        have hin := hok rfl
        simp [okLine, ownFailure, hin]
    | error e =>
        have hout : ownFailure (.error e) = false → call.json.line number ∉ r.log := by
          intro hown hin
          rcases hcases hin with ho | ho
          · cases ho
          · rw [hown] at ho
            cases ho
        cases hown : ownFailure (.error e) with
        | true => simp [okLine, hown]
        | false => simp [okLine, hown, hout hown]

end Run

/-- **A LINE THAT RETURNS OK IS ON THE LOG EXACTLY ONCE.** After every sequence of calls that
    nothing disturbs, on every directory: the lines of the calls that returned `Ok` are on the log
    exactly once and in call order; the line of a call that returned an error is there only if its
    own write or flush failed; and `records_written` counts the lines that were handed to a file. -/
theorem ok_exactly_once {config : JsonlWriterConfig} (hflush : config.flushEachWrite = true)
    (files : SortedMap Path (List UInt8)) {calls : List WriteCall}
    (hcalls : Along step Undisturbed (start config files) calls) :
    Exact (foldSteps step (start config files) calls) := by
  refine exact_of_books ?_
  exact Machine.foldSteps_of_along (I := Books) (fun r call hu h => books_step h hu)
    (books_start hflush files) hcalls

/-- I/O calls of which none fails. -/
def noFailure : IoOutcome where
  existsFails _ := false
  metadataFails _ := false
  dayFlush := .done
  dayOpen := true
  write := .done 0
  flush := .done
  rotateFlush := .done
  rotateOpen := true

/-- Two calls on one day, with the given rotation behind the first one. -/
def twoCalls (rotateOpen : Bool) : List WriteCall :=
  [⟨20260101, ⟨[97], by decide⟩, { noFailure with rotateOpen }⟩,
    ⟨20260101, ⟨[98], by decide⟩, noFailure⟩]

/-- A directory without segment files, and segments of one record. -/
def singleRecords : JsonlRun := start ⟨true, some ⟨0, 1⟩⟩ .empty

/-- Two lines in two segments. -/
theorem ok_exactly_once_two : Exact (foldSteps step singleRecords (twoCalls true)) := by
  have hfirst : Undisturbed singleRecords ⟨20260101, ⟨[97], by decide⟩, noFailure⟩ :=
    ⟨by decide, by decide, rfl, rfl⟩
  have hsecond : Undisturbed (singleRecords.step ⟨20260101, ⟨[97], by decide⟩, noFailure⟩)
      ⟨20260101, ⟨[98], by decide⟩, noFailure⟩ :=
    ⟨by decide, by decide, rfl, rfl⟩
  exact ok_exactly_once rfl .empty ⟨hfirst, hsecond, trivial⟩

/-- **A ROTATION THAT FAILS, AND THE NEXT CALL.** Segments of one record. The first line is written,
    its rotation fails, and the call returns an error; the second call returns `Ok`, counts a
    record, and writes nothing. -/
theorem written_nowhere :
    let r := foldSteps step singleRecords (twoCalls false)
    r.log = [Json.line ⟨[97], by decide⟩ 0] ∧ r.okLines = [Json.line ⟨[98], by decide⟩ 1] ∧
      r.writer.state.recordsWritten = 2 ∧ ¬ Exact r := by
  intro r
  have hlog : r.log = [Json.line ⟨[97], by decide⟩ 0] := by decide
  have hok : r.okLines = [Json.line ⟨[98], by decide⟩ 1] := by decide
  refine ⟨hlog, hok, by decide, fun h => ?_⟩
  have hexact := h.ok
  rw [hlog, hok] at hexact
  exact absurd hexact (by decide)

end JsonlRun

end IronCrab
