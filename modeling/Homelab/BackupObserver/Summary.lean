import Homelab.BackupObserver.Observer
import Homelab.Foundation.GoJsonRoundTrip

/-! # What a run logs and returns

The log gets every line of the input. The summary has the bytes of the last statistics, and as
many errors as they say or as were seen.
-/

namespace Homelab.BackupObserver

open Text GoText GoJson LineScanner

structure Host.Writable (host : Host) : Prop where
  opens : host.opens = true
  writes : ∀ number, host.writes number = none
  publishes : ∀ number, host.publishes number = true

/-- Each line is shorter than the largest buffer, with the newline that ends it. -/
def Short (bytes : Line) : Prop :=
  (∀ line ∈ (splitChars '\n' bytes).dropLast, line.length + 1 < limit) ∧
    ∀ last ∈ (splitChars '\n' bytes).getLast?, last.length < limit

instance (bytes : Line) : Decidable (Short bytes) := inferInstanceAs (Decidable (_ ∧ _))

/-- The lines that can be decoded. -/
def events (lines : List Line) : List Event := lines.filterMap unmarshal

def lastStats (events : List Event) : Option Stats := (events.filterMap Event.stats).getLast?

structure Summarizes (result : Summary) (events : List Event) : Prop where
  bytes : result.bytes = ((lastStats events).map Stats.bytes).getD 0
  errors : result.errors =
    max (((lastStats events).map Stats.errors).getD 0) (events.countP Event.isError : Nat)

/-! ## What a line says -/

/-- The numbers are ones that Go holds. The speed is left out of the line. -/
structure Stats.Plain (s : Stats) : Prop where
  bytes : InInt64 s.bytes
  errors : InInt64 s.errors
  totalBytes : InInt64 s.totalBytes
  speed : s.speed = 0

def Stats.text (s : Stats) : Line :=
  object [("bytes", decimal s.bytes), ("errors", decimal s.errors),
    ("totalBytes", decimal s.totalBytes)]

def Stats.tree (s : Stats) : Tree :=
  .dict [("bytes".toList, .number (wholeNumeral s.bytes)),
    ("errors".toList, .number (wholeNumeral s.errors)),
    ("totalBytes".toList, .number (wholeNumeral s.totalBytes))]

/-- A line of the log with a level, a message and perhaps statistics. -/
def eventLine (level msg : Line) (stats : Option Stats) : Line :=
  object ([("level", '"' :: (level ++ ['"'])), ("msg", '"' :: (msg ++ ['"']))] ++
    stats.toList.map fun s => ("stats", s.text))

theorem Stats.reads (depth : Nat) (s : Stats) : Reads (depth + 1) s.text s.tree := by
  let fields : List (String × Line × Tree) :=
    [("bytes", decimal s.bytes, .number (wholeNumeral s.bytes)),
      ("errors", decimal s.errors, .number (wholeNumeral s.errors)),
      ("totalBytes", decimal s.totalBytes, .number (wholeNumeral s.totalBytes))]
  have each : ∀ field ∈ fields, (∀ char ∈ field.1.toList, Json.Plain char) ∧
      Reads depth field.2.1 field.2.2 := by
    simp only [fields, List.forall_mem_cons, List.not_mem_nil, false_implies, implies_true,
      and_true]
    exact ⟨⟨by decide, reads_decimal _ _⟩, ⟨by decide, reads_decimal _ _⟩, by decide,
      reads_decimal _ _⟩
  exact reads_fields each

theorem Stats.set_tree {s : Stats} (plain : s.Plain) (level : Line) :
    Event.set ⟨level, none⟩ ("stats".toList, s.tree) = some ⟨level, some s⟩ := by
  have same : s = ⟨s.bytes, s.errors, s.totalBytes, 0⟩ := by rw [← plain.speed]
  have filled : [("bytes".toList, .number (wholeNumeral s.bytes)),
      ("errors".toList, .number (wholeNumeral s.errors)),
      ("totalBytes".toList, .number (wholeNumeral s.totalBytes))].foldlM Stats.set .zero =
        some s := by
    simp only [List.foldlM_cons, List.foldlM_nil, Stats.set, readInt,
      wholeNumeral_int64 plain.bytes, wholeNumeral_int64 plain.errors,
      wholeNumeral_int64 plain.totalBytes]
    exact congrArg some same.symm
  have applied (fields : List (Line × Tree)) :
      Event.set ⟨level, none⟩ ("stats".toList, .dict fields) =
        (fields.foldlM Stats.set .zero).map fun stats => ⟨level, some stats⟩ := rfl
  rw [Stats.tree, applied, filled]
  rfl

theorem Stats.text_ascii (s : Stats) : Utf8.Ascii s.text := by
  apply object_ascii
  simp only [List.forall_mem_cons, List.not_mem_nil, false_implies, implies_true, and_true]
  exact ⟨⟨by decide, decimal_ascii _⟩, ⟨by decide, decimal_ascii _⟩, by decide, decimal_ascii _⟩

/-- Nothing in the text has to be escaped. -/
def Printable (text : Line) : Prop := Utf8.Ascii text ∧ ∀ char ∈ text, Json.Plain char

theorem Printable.quoted {text : Line} (printable : Printable text) :
    Utf8.Ascii ('"' :: (text ++ ['"'])) :=
  (show Utf8.Ascii ['"'] by decide).append (printable.1.append (by decide))

/-- A line is decoded into the level and the statistics that it says. -/
theorem unmarshal_eventLine {level msg : Line} {stats : Option Stats}
    (printable : Printable level) (printable' : Printable msg)
    (plain : ∀ s ∈ stats, s.Plain) :
    unmarshal (eventLine level msg stats) = some ⟨level, stats⟩ := by
  let fields : List (String × Line × Tree) :=
    [("level", '"' :: (level ++ ['"']), .str level), ("msg", '"' :: (msg ++ ['"']), .str msg)] ++
      stats.toList.map fun s => ("stats", s.text, s.tree)
  have each : ∀ field ∈ fields, (∀ char ∈ field.1.toList, Json.Plain char) ∧
      Reads 9999 field.2.1 field.2.2 := by
    intro field member
    rcases List.mem_append.mp member with named | counted
    · simp only [List.mem_cons, List.not_mem_nil, or_false] at named
      rcases named with rfl | rfl
      · exact ⟨(by decide : ∀ char ∈ "level".toList, Json.Plain char),
          reads_text _ printable.2⟩
      · exact ⟨(by decide : ∀ char ∈ "msg".toList, Json.Plain char),
          reads_text _ printable'.2⟩
    · rcases List.mem_map.mp counted with ⟨s, _, rfl⟩
      exact ⟨(by decide : ∀ char ∈ "stats".toList, Json.Plain char), s.reads 9998⟩
  have ascii : Utf8.Ascii (eventLine level msg stats) := by
    apply object_ascii
    intro field member
    rcases List.mem_append.mp member with named | counted
    · simp only [List.mem_cons, List.not_mem_nil, or_false] at named
      rcases named with rfl | rfl
      · exact ⟨(by decide : Utf8.Ascii "level".toList), printable.quoted⟩
      · exact ⟨(by decide : Utf8.Ascii "msg".toList), printable'.quoted⟩
    · rcases List.mem_map.mp counted with ⟨s, _, rfl⟩
      exact ⟨(by decide : Utf8.Ascii "stats".toList), s.text_ascii⟩
  have written : eventLine level msg stats =
      object (fields.map fun field => (field.1, field.2.1)) := by
    cases stats with
    | none => rfl
    | some s => rfl
  have decoded : decode (.dict (fields.map fun field => (field.1.toList, field.2.2))) =
      some ⟨level, stats⟩ := by
    have started (rest : List (Line × Tree)) :
        decode (.dict (("level".toList, .str level) :: ("msg".toList, .str msg) :: rest)) =
          rest.foldlM Event.set ⟨level, none⟩ := rfl
    cases stats with
    | none => exact started []
    | some s =>
        refine (started [("stats".toList, s.tree)]).trans ?_
        rw [List.foldlM_cons, Stats.set_tree (plain s rfl)]
        rfl
  have parsed := parse_of_reads (reads_object (by simp [fields]) each)
    (List.forall_mem_nil fun char => Json.isSpace char = true)
  rw [List.append_nil, ← written] at parsed
  rw [unmarshal, runes_ascii ascii, parsed, Option.bind_some, decoded]

/-! ## One event -/

theorem countError_eq (e : Event) (o : Observer) :
    (countError e o).errorLines = o.errorLines + (if e.isError then 1 else 0) ∧
      (countError e o).result = o.result := by
  rw [countError]
  split
  · exact ⟨rfl, rfl⟩
  · exact ⟨(Int.add_zero _).symm, rfl⟩

theorem takeStats_eq (e : Event) (o : Observer) :
    (takeStats e o).errorLines = o.errorLines ∧
      (takeStats e o).result.bytes = (e.stats.map Stats.bytes).getD o.result.bytes ∧
      (takeStats e o).result.errors = (e.stats.map Stats.errors).getD o.result.errors := by
  rw [takeStats]
  cases e.stats with
  | none => exact ⟨rfl, rfl, rfl⟩
  | some s => exact ⟨rfl, rfl, rfl⟩

theorem raiseErrors_eq (o : Observer) :
    (raiseErrors o).errorLines = o.errorLines ∧ (raiseErrors o).result.bytes = o.result.bytes ∧
      (raiseErrors o).result.errors = max o.result.errors o.errorLines := by
  rw [raiseErrors]
  split
  · next fewer => exact ⟨rfl, rfl, (max_eq_right (Int.le_of_lt fewer)).symm⟩
  · next enough => exact ⟨rfl, rfl, (max_eq_left (Int.not_lt.mp enough)).symm⟩

/-- What an event makes of the counts. -/
theorem count_eq (e : Event) (o : Observer) :
    (count e o).errorLines = o.errorLines + (if e.isError then 1 else 0) ∧
      (count e o).result.bytes = (e.stats.map Stats.bytes).getD o.result.bytes ∧
      (count e o).result.errors =
        max ((e.stats.map Stats.errors).getD o.result.errors) (count e o).errorLines := by
  rcases countError_eq e o with ⟨counted, kept⟩
  rcases takeStats_eq e (countError e o) with ⟨lines, bytes, errors⟩
  rcases raiseErrors_eq (takeStats e (countError e o)) with ⟨lines', bytes', errors'⟩
  refine ⟨?_, ?_, ?_⟩
  · rw [count, lines', lines, counted]
  · rw [count, bytes', bytes, kept]
  · rw [count, errors', errors, kept, lines']

/-! ## Events after each other -/

theorem lastStats_append (first rest : List Event) :
    lastStats (first ++ rest) = (lastStats rest).or (lastStats first) := by
  rw [lastStats, List.filterMap_append, List.getLast?_append]
  rfl

/-- What the events make of the counts. The errors of the last statistics count, or those of
`base` before the first. -/
structure Counted (events : List Event) (before after : Observer) : Prop where
  lines : after.errorLines = before.errorLines + (events.countP Event.isError : Nat)
  bytes : after.result.bytes = ((lastStats events).map Stats.bytes).getD before.result.bytes
  errors : ∀ base, before.result.errors = max base before.errorLines →
    after.result.errors = max (((lastStats events).map Stats.errors).getD base) after.errorLines

theorem Counted.none {before after : Observer} (lines : after.errorLines = before.errorLines)
    (result : after.result = before.result) : Counted [] before after where
  lines := lines.trans (Int.add_zero _).symm
  bytes := congrArg Summary.bytes result
  errors base raised := by
    rw [result, lines, raised]
    rfl

theorem Counted.one (e : Event) {before after : Observer}
    (lines : after.errorLines = before.errorLines) (result : after.result = before.result) :
    Counted [e] before (count e after) := by
  rcases count_eq e after with ⟨counted, bytes, errors⟩
  have last : lastStats [e] = e.stats := by
    cases stats : e.stats with
    | none => simp [lastStats, stats]
    | some s => simp [lastStats, stats]
  refine ⟨?_, ?_, fun base raised => ?_⟩
  · rw [counted, lines, List.countP_singleton]
    split
    · rfl
    · rfl
  · rw [bytes, last, result]
  · rw [errors, last]
    cases e.stats with
    | some s => rfl
    | none =>
        simp only [Option.map_none, Option.getD_none, result, raised, counted, lines]
        split
        · omega
        · omega

theorem Counted.trans {first rest : List Event} {before middle after : Observer}
    (earlier : Counted first before middle) (later : Counted rest middle after) :
    Counted (first ++ rest) before after where
  lines := by
    rw [later.lines, earlier.lines, List.countP_append]
    push_cast
    omega
  bytes := by
    rw [later.bytes, earlier.bytes, lastStats_append]
    cases lastStats rest with
    | none => rfl
    | some s => rfl
  errors base raised := by
    rw [later.errors _ (earlier.errors base raised), lastStats_append]
    cases lastStats rest with
    | none => rfl
    | some s => rfl

/-! ## The whole input -/

section

variable {host : Host} (writable : host.Writable)
include writable

theorem emit_writable (running : Int) (o : Observer) :
    ∃ after, emit host running o = (after, none) ∧ after.log = o.log ∧
      after.errorLines = o.errorLines ∧ after.result = o.result := by
  rw [emit, if_pos (writable.publishes o.emits)]
  exact ⟨_, rfl, rfl, rfl, rfl⟩

theorem handle_writable (line : Line) (o : Observer) :
    ∃ after, handle host (line ++ ['\n']) line o = (after, none) ∧
      after.log = o.log ++ (line ++ ['\n']) ∧ Counted (unmarshal line).toList o after := by
  rw [handle, write, writable.writes o.writes]
  simp only
  rcases unmarshal line with _ | e
  · exact ⟨_, rfl, rfl, .none rfl rfl⟩
  · let logged := { o with writes := o.writes + 1, log := o.log ++ (line ++ ['\n']) }
    have counted : Counted [e] o (count e logged) := .one e rfl rfl
    have log : (count e logged).log = o.log ++ (line ++ ['\n']) := (count_kept e logged).1
    simp only
    split
    · rcases emit_writable writable 1 (count e logged) with ⟨after, emitted, same, lines, result⟩
      refine ⟨after, emitted, same.trans log, ?_⟩
      have kept : Counted [] (count e logged) after := .none lines result
      exact counted.trans kept
    · exact ⟨_, rfl, log, counted⟩

theorem handleAll_writable (lines : List Line) (o : Observer) :
    ∃ after, handleAll host lines o = (after, none) ∧
      after.log = o.log ++ lines.flatMap (· ++ ['\n']) ∧ Counted (events lines) o after := by
  induction lines generalizing o with
  | nil => exact ⟨o, rfl, (List.append_nil _).symm, .none rfl rfl⟩
  | cons line rest induction =>
      rcases handle_writable writable line o with ⟨middle, handled, log, counted⟩
      rcases induction middle with ⟨after, all, log', counted'⟩
      refine ⟨after, (handleAll_goes handled rest).trans all, ?_, ?_⟩
      · rw [log', log, List.append_assoc, List.flatMap_cons]
      · have split : events (line :: rest) = (unmarshal line).toList ++ events rest := by
          rw [events, List.filterMap_cons]
          cases unmarshal line with
          | none => rfl
          | some e => rfl
        rw [split]
        exact counted.trans counted'

end

theorem Short.fits {source : Source} (short : Short source.bytes) : source.Fits limit := by
  constructor
  · intro line member
    have shorter := short.1 line member
    omega
  · exact fun last member => .inl (short.2 last member)

/-- Whatever the order of lines, and however the input comes: the log gets every line of it, and
the summary is that of its events. -/
theorem observe_summary {host : Host} (writable : host.Writable)
    (short : Short host.source.bytes) :
    (observe host).1.log = (linesOf host.source.bytes).flatMap (· ++ ['\n']) ∧
      Summarizes (observe host).1.result (events (linesOf host.source.bytes)) := by
  rcases emit_writable writable 1 .start with ⟨o, begins, log, lines, result⟩
  rcases observe_eq writable.opens begins with ⟨handed, fault, yields, ends⟩
  rcases yields.lines (by decide) with ⟨_, rfl, _⟩ | ⟨impossible, _⟩
  · rcases handleAll_writable writable (linesOf host.source.bytes) o with
      ⟨after, handled, logged, counted⟩
    have summary : Summarizes after.result (events (linesOf host.source.bytes)) := by
      constructor
      · rw [counted.bytes, result]
        rfl
      · rw [counted.errors 0 (by rw [result, lines]; rfl), counted.lines, lines]
        rw [show Observer.start.errorLines = 0 from rfl, Int.zero_add]
    rw [log] at logged
    rw [ends, handled]
    simp only
    split
    · split
      · rcases emit_writable writable 0 after with ⟨last, emitted, log', _, result'⟩
        rw [emitted, log', result']
        exact ⟨logged, summary⟩
      · exact ⟨logged, summary⟩
    · exact ⟨logged, summary⟩
  · exact absurd short.fits impossible

/-- Statistics, an error, a line that is no event, with an end like that of DOS, newer
statistics, and an error without an end. -/
def interleaved : List Line :=
  [eventLine "info".toList [] (some ⟨42, 3, 100, 0⟩), eventLine "ERROR".toList [] none,
    "Transferring:\r".toList, eventLine "notice".toList [] (some ⟨50, 0, 100, 0⟩),
    eventLine "error".toList [] none]

/-- The last line comes in two pieces. -/
def interleavedInput : Reader :=
  let text := interleaved.flatMap (· ++ ['\n'])
  [⟨text.take (text.length - 5), none⟩, ⟨(text.drop (text.length - 5)).dropLast, some .eof⟩]

theorem observe_summary_interleaved :
    (observe (plainHost interleavedInput)).1.log =
        (interleaved.map fun line => line.filter (· ≠ '\r')).flatMap (· ++ ['\n']) ∧
      (observe (plainHost interleavedInput)).1.result = ⟨50, 2⟩ := by
  have writable : (plainHost interleavedInput).Writable := ⟨rfl, fun _ => rfl, fun _ => rfl⟩
  have computed : Short (plainHost interleavedInput).source.bytes ∧
      linesOf (plainHost interleavedInput).source.bytes =
        interleaved.map (fun line => line.filter (· ≠ '\r')) ∧
      events (interleaved.map fun line => line.filter (· ≠ '\r')) =
        [⟨"info".toList, some ⟨42, 3, 100, 0⟩⟩, ⟨"ERROR".toList, none⟩,
          ⟨"notice".toList, some ⟨50, 0, 100, 0⟩⟩, ⟨"error".toList, none⟩] := by
    decide +kernel
  have ⟨log, summary⟩ := observe_summary writable computed.1
  rw [computed.2.1] at log summary
  rw [computed.2.2] at summary
  have bytes := summary.bytes
  have errors := summary.errors
  refine ⟨log, ?_⟩
  cases result : (observe (plainHost interleavedInput)).1.result with
  | mk counted failed =>
      rw [result] at bytes errors
      rw [show counted = 50 from bytes, show failed = 2 from errors.trans (by decide)]

end Homelab.BackupObserver
