import Homelab.Foundation.Lines
import Mathlib.Algebra.GroupWithZero.Nat
import Mathlib.Data.List.TakeDrop

/-! # Lines through a buffer

`bufio.Scanner` of Go with `ScanLines`: a reader delivers bytes, a few at a time, into a buffer
that moves and grows, and lines are handed out as parts of the buffer. A line that fills the
largest buffer ends the scan.
-/

namespace Homelab.LineScanner

open Text

/-! ## Readers -/

inductive Fault
  | eof
  | noProgress
  | tooLong
  | failed
deriving DecidableEq

/-- What one call of the reader delivers, if there is room for it. -/
structure Piece where
  bytes : Line
  fault : Option Fault

/-- What calls after each other deliver. It is over after the last of them. -/
abbrev Reader := List Piece

/-- `Read`. What there is no room for, and the error that comes with it, is left for the next
call. -/
def Reader.read (room : Nat) : Reader → Line × Option Fault × Reader
  | [] => ([], some .eof, [])
  | piece :: rest =>
      if piece.bytes.length ≤ room then (piece.bytes, piece.fault, rest)
      else (piece.bytes.take room, none, { piece with bytes := piece.bytes.drop room } :: rest)

def Reader.weight (reader : Reader) : Nat := (reader.map fun piece => piece.bytes.length + 1).sum

/-! ## Buffers -/

/-- `buf[:start]`, `buf[start:end]` and `buf[end:]`. -/
structure Buffer where
  past : Line
  data : Line
  room : Line

namespace Buffer

/-- `buf`. -/
def all (buffer : Buffer) : Line := buffer.past ++ (buffer.data ++ buffer.room)

def size (buffer : Buffer) : Nat := buffer.all.length

def advance (count : Nat) (buffer : Buffer) : Buffer where
  past := buffer.past ++ buffer.data.take count
  data := buffer.data.drop count
  room := buffer.room

/-- `copy(buf, buf[start:end])`. -/
def shift (buffer : Buffer) : Buffer where
  past := []
  data := buffer.data
  room := buffer.all.drop buffer.data.length

def grow (size : Nat) (buffer : Buffer) : Buffer where
  past := []
  data := buffer.data
  room := List.replicate (size - buffer.data.length) (.ofNat 0)

def receive (bytes : Line) (buffer : Buffer) : Buffer where
  past := buffer.past
  data := buffer.data ++ bytes
  room := buffer.room.drop bytes.length

/-- `buf[index] = char`. -/
def set (index : Nat) (char : Char) (buffer : Buffer) : Buffer where
  past := (buffer.all.set index char).take buffer.past.length
  data := ((buffer.all.set index char).drop buffer.past.length).take buffer.data.length
  room := ((buffer.all.set index char).drop buffer.past.length).drop buffer.data.length

end Buffer

structure Slice where
  start : Nat
  length : Nat

def Slice.stop (slice : Slice) : Nat := slice.start + slice.length

def Buffer.text (slice : Slice) (buffer : Buffer) : Line :=
  (buffer.all.drop slice.start).take slice.length

/-! ## Scanning -/

def dropCR (line : Line) : Line := if line.getLast? = some '\r' then line.dropLast else line

/-- `ScanLines`: how far to go, and the length of the line, if there is one. -/
def scanLines (data : Line) (atEOF : Bool) : Nat × Option Nat :=
  match data.span (· ≠ '\n') with
  | (line, _ :: _) => (line.length + 1, some (dropCR line).length)
  | (line, []) => if atEOF && line ≠ [] then (line.length, some (dropCR line).length) else (0, none)

structure Scanner where
  reader : Reader
  buffer : Buffer
  err : Option Fault
  maxTokenSize : Nat

namespace Scanner

def receive (s : Scanner) : Bool × Scanner :=
  let (bytes, fault, reader) := s.reader.read s.buffer.room.length
  let s := { s with reader, buffer := s.buffer.receive bytes }
  match fault with
  | some fault => (false, { s with err := some fault })
  | none => (bytes.isEmpty, s)

/-- Read until something comes. The reader may deliver nothing `tries` times and then once more. -/
def fill : Nat → Scanner → Scanner
  | 0, s =>
      let (again, s) := s.receive
      if again then { s with err := some .noProgress } else s
  | tries + 1, s =>
      let (again, s) := s.receive
      if again then fill tries s else s

def maxConsecutiveEmptyReads : Nat := 100

/-- Move the data to the front, if there is lots of space before them or none after them. -/
def shift (s : Scanner) : Scanner :=
  if s.buffer.past ≠ [] ∧ (s.buffer.room = [] ∨ s.buffer.size / 2 < s.buffer.past.length) then
    { s with buffer := s.buffer.shift }
  else s

def startBufSize : Nat := 4096

/-- A larger buffer, if there is no space left. There is none if the buffer is the largest. -/
def resize (s : Scanner) : Option Scanner :=
  if s.buffer.room = [] then
    if s.maxTokenSize ≤ s.buffer.size then none
    else
      let newSize := if s.buffer.size * 2 = 0 then startBufSize else s.buffer.size * 2
      some { s with buffer := s.buffer.grow (min newSize s.maxTokenSize) }
  else some s

def split (s : Scanner) : Nat × Option Nat :=
  if s.buffer.data ≠ [] ∨ s.err ≠ none then scanLines s.buffer.data s.err.isSome else (0, none)

/-- `Scan`: the line, or none at the end. `steps` bounds the work and never runs out. -/
def scanWithin : Nat → Scanner → Option Slice × Scanner
  | 0, s => (none, s)
  | steps + 1, s =>
      match s.split with
      | (advance, some length) =>
          (some ⟨s.buffer.past.length, length⟩, { s with buffer := s.buffer.advance advance })
      | (_, none) =>
          if s.err ≠ none then (none, { s with buffer := ⟨[], [], s.buffer.all⟩ })
          else
            match s.shift.resize with
            | none => (none, { s.shift with err := some .tooLong })
            | some s => scanWithin steps (s.fill maxConsecutiveEmptyReads)

def scan (s : Scanner) : Option Slice × Scanner := scanWithin (Reader.weight s.reader + 2) s

/-- `Bytes`. -/
def text (token : Slice) (s : Scanner) : Line := s.buffer.text token

/-- `append(line, char)`, which writes into the buffer behind the line, unless the buffer ends
there. -/
def append (token : Slice) (char : Char) (s : Scanner) : Line × Scanner :=
  (s.text token ++ [char],
    if token.stop < s.buffer.size then { s with buffer := s.buffer.set token.stop char } else s)

/-- `Err`. -/
def error (s : Scanner) : Option Fault := if s.err = some .eof then none else s.err

end Scanner

/-- `NewScanner` and `Buffer`. -/
def newScanner (reader : Reader) (size maxTokenSize : Nat) : Scanner where
  reader := reader
  buffer := ⟨[], [], List.replicate size (.ofNat 0)⟩
  err := none
  maxTokenSize := maxTokenSize

/-! ## What is delivered -/

/-- The bytes that a reader delivers, what ends them, and whether it comes along with the last of
them. -/
structure Source where
  bytes : Line
  fault : Fault
  together : Bool

/-- What calls of the reader deliver, where it may deliver nothing `tries` times and then once
more. -/
def Reader.source : Nat → Reader → Source
  | _, [] => ⟨[], .eof, false⟩
  | tries, piece :: rest =>
      match piece.fault with
      | some fault => ⟨piece.bytes, fault, !piece.bytes.isEmpty⟩
      | none =>
          if piece.bytes.isEmpty then
            match tries with
            | 0 => ⟨[], .noProgress, false⟩
            | tries + 1 => Reader.source tries rest
          else
            let later := Reader.source Scanner.maxConsecutiveEmptyReads rest
            { later with bytes := piece.bytes ++ later.bytes }

def linesOf (bytes : Line) : List Line :=
  let parts := splitChars '\n' bytes
  (parts.dropLast ++ parts.getLast?.toList.filter fun last => last ≠ []).map dropCR

/-- All lines fit into the largest buffer, and so does the last one without a newline, which may
fill it if nothing has to be read after it. -/
def Source.Fits (limit : Nat) (source : Source) : Prop :=
  (∀ line ∈ (splitChars '\n' source.bytes).dropLast, line.length < limit) ∧
    ∀ last ∈ (splitChars '\n' source.bytes).getLast?,
      last.length < limit ∨ last.length = limit ∧ source.together = true

inductive Yields (limit : Nat) : Source → List Line → Fault → Prop
  | line {source : Source} {line rest : Line} {lines : List Line} {fault : Fault} :
      source.bytes = line ++ '\n' :: rest → '\n' ∉ line → line.length < limit →
      Yields limit { source with bytes := rest } lines fault →
      Yields limit source (dropCR line :: lines) fault
  | last {source : Source} : source.bytes ≠ [] → '\n' ∉ source.bytes →
      source.bytes.length < limit ∨ source.bytes.length = limit ∧ source.together = true →
      Yields limit source [dropCR source.bytes] source.fault
  | stop {source : Source} : source.bytes = [] → Yields limit source [] source.fault
  | tooLong {source : Source} {line rest : Line} : source.bytes = line ++ rest → '\n' ∉ line →
      line.length = limit → (rest = [] → source.together = false) →
      Yields limit source [] .tooLong

/-! ## Buffers keep their data -/

namespace Buffer

theorem size_eq (buffer : Buffer) :
    buffer.size = buffer.past.length + (buffer.data.length + buffer.room.length) := by
  rw [size, all, List.length_append, List.length_append]

theorem size_advance (count : Nat) (buffer : Buffer) :
    (buffer.advance count).size = buffer.size := by
  simp only [size_eq, advance, List.length_append, List.length_take, List.length_drop]
  omega

theorem all_advance (count : Nat) (buffer : Buffer) : (buffer.advance count).all = buffer.all := by
  simp only [all, advance, List.append_assoc]
  rw [← List.append_assoc (List.take _ _), List.take_append_drop]

theorem size_shift (buffer : Buffer) : buffer.shift.size = buffer.size := by
  simp only [size_eq, shift, all, List.length_append, List.length_drop, List.length_nil]
  omega

theorem size_grow {size : Nat} {buffer : Buffer} (enough : buffer.data.length ≤ size) :
    (buffer.grow size).size = size := by
  simp only [size_eq, grow, List.length_replicate, List.length_nil]
  omega

theorem size_receive {bytes : Line} {buffer : Buffer} (fits : bytes.length ≤ buffer.room.length) :
    (buffer.receive bytes).size = buffer.size := by
  simp only [size_eq, receive, List.length_append, List.length_drop]
  omega

theorem all_set (index : Nat) (char : Char) (buffer : Buffer) :
    (buffer.set index char).all = buffer.all.set index char := by
  rw [all, set]
  simp only [List.take_append_drop]

/-- What is written before the data leaves them alone. -/
theorem data_set {index : Nat} {buffer : Buffer} (before : index < buffer.past.length)
    (char : Char) : (buffer.set index char).data = buffer.data := by
  rw [set, all, List.set_append_left _ _ before, List.drop_left' (List.length_set ..),
    List.take_left]

theorem data_set_nil {buffer : Buffer} (none : buffer.data = []) (index : Nat) (char : Char) :
    (buffer.set index char).data = [] := by
  rw [set, none]
  rfl

/-- A part of the buffer that ends before the index is not written. -/
theorem text_set (slice : Slice) (char : Char) (buffer : Buffer) :
    (buffer.set slice.stop char).text slice = buffer.text slice := by
  rw [text, text, all_set, List.drop_set, if_neg (by rw [Slice.stop]; omega), List.take_set_of_le]
  rw [Slice.stop]
  omega

end Buffer

/-! ## A scanner reads its source -/

namespace Scanner

/-- What is left of the source is in the buffer, and in the reader if it has not ended. -/
def Holds (tries : Nat) (s : Scanner) (source : Source) : Prop :=
  match s.err with
  | none => source = { Reader.source tries s.reader with
      bytes := s.buffer.data ++ (Reader.source tries s.reader).bytes }
  | some fault => source.bytes = s.buffer.data ∧ source.fault = fault ∧
      (source.together = true ∨ s.buffer.data.length < s.maxTokenSize)

/-- The scanner has a buffer that is not too large, and holds the source. -/
structure Ready (s : Scanner) (source : Source) : Prop where
  some_ : 0 < s.buffer.size
  size : s.buffer.size ≤ s.maxTokenSize
  holds : s.Holds maxConsecutiveEmptyReads source

theorem source_ends {piece : Piece} {fault : Fault} (ends : piece.fault = some fault) (tries : Nat)
    (rest : Reader) : Reader.source tries (piece :: rest) =
      ⟨piece.bytes, fault, !piece.bytes.isEmpty⟩ := by
  rw [Reader.source.eq_def]
  simp only [ends]

theorem source_goes {piece : Piece} (goes : piece.fault = none) (some_ : piece.bytes ≠ [])
    (tries : Nat) (rest : Reader) : Reader.source tries (piece :: rest) =
      { Reader.source maxConsecutiveEmptyReads rest with
        bytes := piece.bytes ++ (Reader.source maxConsecutiveEmptyReads rest).bytes } := by
  rw [Reader.source.eq_def]
  simp only [goes]
  rw [if_neg (by simpa using some_)]

theorem source_nothing {piece : Piece} (goes : piece.fault = none) (none_ : piece.bytes = [])
    (tries : Nat) (rest : Reader) : Reader.source tries (piece :: rest) =
      match tries with
      | 0 => ⟨[], .noProgress, false⟩
      | tries + 1 => Reader.source tries rest := by
  rw [Reader.source.eq_def]
  simp only [goes, none_, List.isEmpty_nil, if_true]

theorem together_nil (tries : Nat) (reader : Reader)
    (none_ : (Reader.source tries reader).bytes = []) :
    (Reader.source tries reader).together = false := by
  induction reader generalizing tries with
  | nil => rfl
  | cons piece rest induction =>
      rcases goes : piece.fault with _ | fault
      · by_cases empty : piece.bytes = []
        · rw [source_nothing goes empty] at none_ ⊢
          cases tries with
          | zero => rfl
          | succ tries => exact induction tries none_
        · rw [source_goes goes empty] at none_
          exact absurd (List.append_eq_nil_iff.mp none_).1 empty
      · rw [source_ends goes] at none_ ⊢
        simp only at none_
        simp [none_]

inductive Received (s : Scanner) (tries : Nat) (source : Source) : Bool → Scanner → Prop
  | came {next : Scanner} : next.Holds maxConsecutiveEmptyReads source →
      (next.err = none → Reader.weight next.reader < Reader.weight s.reader) →
      Received s tries source false next
  | nothing {rest : Reader} : Reader.weight rest < Reader.weight s.reader →
      (source = match tries with
        | 0 => ⟨s.buffer.data, .noProgress, false⟩
        | tries + 1 => { Reader.source tries rest with
            bytes := s.buffer.data ++ (Reader.source tries rest).bytes }) →
      Received s tries source true { s with reader := rest, buffer := s.buffer.receive [] }

theorem weight_cons (piece : Piece) (rest : Reader) :
    Reader.weight (piece :: rest) = piece.bytes.length + 1 + Reader.weight rest := by
  rw [Reader.weight, List.map_cons, List.sum_cons]
  rfl

theorem receive_spec {tries : Nat} {s : Scanner} {source : Source} (open_ : s.err = none)
    (holds : s.Holds tries source) (room : s.buffer.room ≠ [])
    (size : s.buffer.size ≤ s.maxTokenSize) :
    Received s tries source s.receive.1 s.receive.2 ∧
      s.receive.2.buffer.size = s.buffer.size ∧ s.receive.2.maxTokenSize = s.maxTokenSize := by
  have space : 0 < s.buffer.room.length := List.length_pos_iff.mpr room
  have spare : s.buffer.data.length < s.maxTokenSize := by
    have whole := s.buffer.size_eq
    omega
  rw [Holds, open_] at holds
  simp only at holds
  rcases ended : s.reader with _ | ⟨piece, rest⟩
  · have received : s.receive =
        (false, { s with err := some .eof, buffer := s.buffer.receive [], reader := [] }) := by
      simp [receive, Reader.read, ended]
    rw [ended] at holds
    rw [received]
    refine ⟨.came ?_ (by simp), Buffer.size_receive (Nat.zero_le _), rfl⟩
    subst holds
    exact ⟨rfl, rfl, .inr (by simpa [Buffer.receive] using spare)⟩
  rw [ended] at holds
  by_cases fits : piece.bytes.length ≤ s.buffer.room.length
  · rcases goes : piece.fault with _ | fault
    · by_cases empty : piece.bytes = []
      · have received : s.receive =
            (true, { s with buffer := s.buffer.receive [], reader := rest }) := by
          simp [receive, Reader.read, ended, goes, empty]
        rw [received]
        refine ⟨.nothing ?_ ?_, Buffer.size_receive (Nat.zero_le _), rfl⟩
        · rw [ended, weight_cons]
          omega
        · rw [source_nothing goes empty] at holds
          rw [holds]
          cases tries with
          | zero => simp
          | succ tries => rfl
      · have received : s.receive =
            (false, { s with buffer := s.buffer.receive piece.bytes, reader := rest }) := by
          simp [receive, Reader.read, ended, goes, fits, empty]
        rw [received]
        refine ⟨.came ?_ ?_, Buffer.size_receive fits, rfl⟩
        · rw [source_goes goes empty] at holds
          rw [Holds, open_]
          simp only [holds, Buffer.receive, List.append_assoc]
        · intro _
          show Reader.weight rest < Reader.weight s.reader
          rw [ended, weight_cons]
          omega
    · have received : s.receive =
          (false, { s with
            err := some fault, buffer := s.buffer.receive piece.bytes, reader := rest }) := by
        simp [receive, Reader.read, ended, goes, fits]
      rw [received]
      refine ⟨.came ?_ (by simp), Buffer.size_receive fits, rfl⟩
      rw [source_ends goes] at holds
      subst holds
      refine ⟨rfl, rfl, ?_⟩
      by_cases empty : piece.bytes = []
      · exact .inr (by simpa [Buffer.receive, empty] using spare)
      · exact .inl (by simpa using empty)
  · have received : s.receive =
        (false, { s with
          buffer := s.buffer.receive (piece.bytes.take s.buffer.room.length)
          reader := { piece with bytes := piece.bytes.drop s.buffer.room.length } :: rest }) := by
      have long : piece.bytes.take s.buffer.room.length ≠ [] := by
        intro none_
        have lengths := congrArg List.length none_
        rw [List.length_take, List.length_nil] at lengths
        omega
      simp [receive, Reader.read, ended, fits, long]
    have some_ : piece.bytes ≠ [] := by
      intro none_
      rw [none_] at fits
      exact fits (Nat.zero_le _)
    have left : piece.bytes.drop s.buffer.room.length ≠ [] := by
      intro none_
      exact fits (List.drop_eq_nil_iff.mp none_)
    have size_ : (piece.bytes.take s.buffer.room.length).length ≤ s.buffer.room.length :=
      List.length_take_le _ _
    rw [received]
    refine ⟨.came ?_ ?_, Buffer.size_receive size_, rfl⟩
    · rw [Holds, open_]
      simp only [Buffer.receive]
      rcases goes : piece.fault with _ | fault
      · rw [source_goes goes some_] at holds
        rw [source_goes rfl left, holds]
        simp only [List.append_assoc]
        rw [← List.append_assoc (List.take _ _), List.take_append_drop]
      · rw [source_ends goes] at holds
        rw [source_ends rfl, holds]
        simp [List.isEmpty_eq_false_iff.mpr some_, List.isEmpty_eq_false_iff.mpr left]
    · intro _
      rw [ended, weight_cons, weight_cons, List.length_drop]
      omega

/-- Reading goes on until the scanner has more, or has come to the end. -/
theorem fill_spec {tries : Nat} {s : Scanner} {source : Source} (open_ : s.err = none)
    (holds : s.Holds tries source) (room : s.buffer.room ≠ [])
    (size : s.buffer.size ≤ s.maxTokenSize) :
    (s.fill tries).Holds maxConsecutiveEmptyReads source ∧
      (s.fill tries).buffer.size = s.buffer.size ∧
      (s.fill tries).maxTokenSize = s.maxTokenSize ∧
      ((s.fill tries).err = none →
        Reader.weight (s.fill tries).reader < Reader.weight s.reader) := by
  induction tries generalizing s with
  | zero =>
      rcases receive_spec open_ holds room size with ⟨received, sameSize, sameLimit⟩
      rw [fill]
      generalize s.receive = result at received sameSize sameLimit
      rcases result with ⟨again, next⟩
      cases received with
      | came held lighter => exact ⟨held, sameSize, sameLimit, lighter⟩
      | nothing lighter ends =>
          refine ⟨?_, sameSize, sameLimit, by simp⟩
          subst ends
          refine ⟨by simp [Buffer.receive], rfl, .inr ?_⟩
          have whole := s.buffer.size_eq
          have space : 0 < s.buffer.room.length := List.length_pos_iff.mpr room
          simp only [if_true, Buffer.receive, List.append_nil]
          omega
  | succ tries induction =>
      rcases receive_spec open_ holds room size with ⟨received, sameSize, sameLimit⟩
      rw [fill]
      generalize s.receive = result at received sameSize sameLimit
      rcases result with ⟨again, next⟩
      cases received with
      | came held lighter => exact ⟨held, sameSize, sameLimit, lighter⟩
      | @nothing rest lighter ends =>
          have held : Holds tries
              { s with reader := rest, buffer := s.buffer.receive [] } source := by
            rw [Holds, open_]
            simpa [Buffer.receive] using ends
          have later := induction (by exact open_) held (by simpa [Buffer.receive] using room)
            (by rw [sameSize, sameLimit]; exact size)
          refine ⟨later.1, later.2.1.trans sameSize, later.2.2.1.trans sameLimit, fun goes => ?_⟩
          exact Nat.lt_trans (later.2.2.2 goes) lighter

/-! ## Lines -/

theorem dropCR_front (line : Line) : dropCR line <+: line := by
  rw [dropCR]
  split
  · exact List.dropLast_prefix line
  · exact List.prefix_refl line

theorem span_line {line : Line} (single : '\n' ∉ line) (rest : Line) :
    (line ++ '\n' :: rest).span (· ≠ '\n') = (line, '\n' :: rest) := by
  have all : ∀ char ∈ line, decide (char ≠ '\n') = true := by
    intro char member
    rw [decide_eq_true_iff]
    rintro rfl
    exact single member
  rw [List.span_eq_takeWhile_dropWhile, List.takeWhile_append_of_pos all,
    List.dropWhile_append_of_pos all]
  simp

theorem span_single {line : Line} (single : '\n' ∉ line) :
    line.span (· ≠ '\n') = (line, []) := by
  have all : ∀ char ∈ line, decide (char ≠ '\n') = true := by
    intro char member
    rw [decide_eq_true_iff]
    rintro rfl
    exact single member
  rw [List.span_eq_takeWhile_dropWhile, List.takeWhile_eq_self_iff.mpr all,
    List.dropWhile_eq_nil_iff.mpr all]

theorem scanLines_line {line : Line} (single : '\n' ∉ line) (rest : Line) (atEOF : Bool) :
    scanLines (line ++ '\n' :: rest) atEOF = (line.length + 1, some (dropCR line).length) := by
  rw [scanLines, span_line single]

theorem scanLines_more {line : Line} (single : '\n' ∉ line) : scanLines line false = (0, none) := by
  rw [scanLines, span_single single]
  rfl

theorem scanLines_last {line : Line} (single : '\n' ∉ line) (some_ : line ≠ []) :
    scanLines line true = (line.length, some (dropCR line).length) := by
  rw [scanLines, span_single single]
  simp [some_]

/-- A line at the start of the data, as a part of the buffer. -/
theorem text_advance {buffer : Buffer} {line after : Line} (spelled : buffer.data = line ++ after)
    (count : Nat) :
    (buffer.advance count).text ⟨buffer.past.length, (dropCR line).length⟩ = dropCR line := by
  rcases dropCR_front line with ⟨more, same⟩
  rw [Buffer.text, Buffer.all_advance, Buffer.all, List.drop_left, spelled]
  generalize dropCR line = own at same
  rw [← same, List.append_assoc, List.append_assoc, List.take_left]

/-! ## One scan -/

theorem shift_spec (s : Scanner) :
    s.shift.reader = s.reader ∧ s.shift.err = s.err ∧ s.shift.maxTokenSize = s.maxTokenSize ∧
      s.shift.buffer.data = s.buffer.data ∧ s.shift.buffer.size = s.buffer.size ∧
      (s.shift.buffer.room = [] → s.shift.buffer.past = []) := by
  rw [shift]
  split
  · exact ⟨rfl, rfl, rfl, rfl, Buffer.size_shift _, fun _ => rfl⟩
  · next stays =>
      refine ⟨rfl, rfl, rfl, rfl, rfl, fun full => ?_⟩
      by_contra some_
      exact stays ⟨some_, .inl full⟩

/-- There is no room left only where the data fill the largest buffer. -/
theorem resize_none {s : Scanner} (full : s.shift.resize = none) :
    s.maxTokenSize ≤ s.buffer.data.length := by
  rcases shift_spec s with ⟨_, _, sameLimit, sameData, _, front⟩
  rw [resize] at full
  split at full
  · next noRoom =>
      split at full
      · next large =>
          have whole := s.shift.buffer.size_eq
          rw [noRoom, front noRoom, sameData] at whole
          simp only [List.length_nil] at whole
          omega
      · cases full
  · cases full

theorem resize_some {s next : Scanner} (resized : s.shift.resize = some next)
    (some_ : 0 < s.buffer.size) (size : s.buffer.size ≤ s.maxTokenSize) :
    next.reader = s.reader ∧ next.err = s.err ∧ next.maxTokenSize = s.maxTokenSize ∧
      next.buffer.data = s.buffer.data ∧ next.buffer.room ≠ [] ∧
      0 < next.buffer.size ∧ next.buffer.size ≤ next.maxTokenSize := by
  rcases shift_spec s with ⟨sameReader, sameErr, sameLimit, sameData, sameSize, front⟩
  rw [resize] at resized
  split at resized
  · next noRoom =>
      split at resized
      · cases resized
      · next small =>
          have whole := s.shift.buffer.size_eq
          rw [noRoom, front noRoom, sameData] at whole
          simp only [List.length_nil] at whole
          rw [if_neg (by omega)] at resized
          cases resized
          have larger :
              s.buffer.data.length < min (s.shift.buffer.size * 2) s.shift.maxTokenSize := by
            omega
          have grown : (s.shift.buffer.grow
              (min (s.shift.buffer.size * 2) s.shift.maxTokenSize)).size = _ :=
            Buffer.size_grow (by rw [sameData]; exact Nat.le_of_lt larger)
          refine ⟨sameReader, sameErr, sameLimit, sameData, ?_, ?_, ?_⟩
          · simp only [Buffer.grow, sameData, ne_eq, List.replicate_eq_nil_iff]
            omega
          · rw [grown]
            omega
          · rw [grown]
            exact Nat.min_le_right _ _
  · next room =>
      cases resized
      refine ⟨sameReader, sameErr, sameLimit, sameData, room, ?_, ?_⟩
      · rw [sameSize]
        exact some_
      · rw [sameSize, sameLimit]
        exact size

/-- What a call of `Scan` makes of the source. -/
inductive Scans (limit : Nat) (source : Source) : Option Slice → Scanner → Prop
  | line {token : Slice} {next : Scanner} {line rest : Line} :
      source.bytes = line ++ '\n' :: rest → '\n' ∉ line → line.length < limit →
      next.text token = dropCR line → token.stop < next.buffer.past.length →
      next.Ready { source with bytes := rest } → next.maxTokenSize = limit →
      Scans limit source (some token) next
  | last {token : Slice} {next : Scanner} : source.bytes ≠ [] → '\n' ∉ source.bytes →
      source.bytes.length < limit ∨ source.bytes.length = limit ∧ source.together = true →
      next.text token = dropCR source.bytes → next.buffer.data = [] →
      next.Ready { source with bytes := [] } → next.err = some source.fault →
      next.maxTokenSize = limit → Scans limit source (some token) next
  | stop {next : Scanner} : source.bytes = [] → next.err = some source.fault →
      Scans limit source none next
  | tooLong {next : Scanner} {line rest : Line} : source.bytes = line ++ rest → '\n' ∉ line →
      line.length = limit → (rest = [] → source.together = false) → next.err = some .tooLong →
      Scans limit source none next

/-- What follows a line in the buffer is held by the scanner that has gone past it. -/
theorem Ready.advance {s : Scanner} {source : Source} (ready : s.Ready source) {line after : Line}
    (spelled : s.buffer.data = line ++ '\n' :: after) :
    ∃ rest, source.bytes = line ++ '\n' :: rest ∧
      Ready { s with buffer := s.buffer.advance (line.length + 1) }
        { source with bytes := rest } := by
  rcases ready with ⟨some_, size, holds⟩
  have left : (s.buffer.advance (line.length + 1)).data = after := by
    rw [Buffer.advance, spelled]
    simp
  rw [Holds] at holds
  rcases open_ : s.err with _ | fault
  · simp only [open_] at holds
    refine ⟨after ++ (Reader.source maxConsecutiveEmptyReads s.reader).bytes, ?_, ?_, ?_, ?_⟩
    · rw [holds, spelled, List.append_assoc, List.cons_append]
    · rwa [Buffer.size_advance]
    · rwa [Buffer.size_advance]
    · rw [Holds]
      simp only [left]
      rw [holds]
  · simp only [open_] at holds
    refine ⟨after, holds.1.trans spelled, ?_, ?_, ?_⟩
    · rwa [Buffer.size_advance]
    · rwa [Buffer.size_advance]
    · rw [Holds]
      simp only [left]
      refine ⟨trivial, holds.2.1, holds.2.2.imp_right fun short => ?_⟩
      rw [spelled, List.length_append, List.length_cons] at short
      omega

theorem scanWithin_spec {steps : Nat} {s : Scanner} {source : Source} (ready : s.Ready source)
    (enough : (if s.err = none then Reader.weight s.reader + 2 else 1) ≤ steps) :
    Scans s.maxTokenSize source (s.scanWithin steps).1 (s.scanWithin steps).2 := by
  induction steps generalizing s with
  | zero =>
      split at enough
      · omega
      · omega
  | succ steps induction =>
      have fits : s.buffer.data.length ≤ s.maxTokenSize := by
        have whole := s.buffer.size_eq
        have size := ready.size
        omega
      by_cases lined : '\n' ∈ s.buffer.data
      · -- the buffer holds a line
        rcases List.eq_append_cons_of_mem lined with ⟨line, after, spelled, single⟩
        rcases ready.advance spelled with ⟨rest, bytes, later⟩
        have split : s.split = (line.length + 1, some (dropCR line).length) := by
          rw [Scanner.split, if_pos (.inl (List.ne_nil_of_mem lined)), spelled]
          exact scanLines_line single after _
        rw [scanWithin, split]
        refine .line bytes single ?_ (text_advance spelled _) ?_ later rfl
        · rw [spelled, List.length_append, List.length_cons] at fits
          omega
        · have short := (dropCR_front line).length_le
          have taken : (s.buffer.advance (line.length + 1)).past.length =
              s.buffer.past.length + (line.length + 1) := by
            rw [Buffer.advance, spelled]
            simp
          simp only [taken, Slice.stop]
          omega
      rcases open_ : s.err with _ | fault
      · -- more has to be read
        have split : s.split = (0, none) := by
          rw [Scanner.split]
          split
          · rw [open_]
            exact scanLines_more lined
          · rfl
        rw [scanWithin, split]
        simp only [open_, ne_eq, not_true, if_false]
        have holds := ready.holds
        rcases resized : s.shift.resize with _ | next
        · have large := resize_none resized
          rw [Holds, open_] at holds
          simp only at holds
          refine .tooLong (congrArg Source.bytes holds) lined (Nat.le_antisymm fits large) ?_ rfl
          intro none_
          rw [holds]
          exact together_nil _ _ none_
        · rcases resize_some resized ready.some_ ready.size with
            ⟨sameReader, sameErr, sameLimit, sameData, room, some_, size⟩
          have held : next.Holds maxConsecutiveEmptyReads source := by
            rw [Holds, open_] at holds
            rw [Holds, sameErr, open_, sameReader, sameData]
            exact holds
          rcases fill_spec (sameErr.trans open_) held room size with
            ⟨filled, sameSize, sameLimit', lighter⟩
          have ready' : (next.fill maxConsecutiveEmptyReads).Ready source :=
            ⟨by rwa [sameSize], by rwa [sameSize, sameLimit'], filled⟩
          have scanned := induction ready' (by
            rw [if_pos open_] at enough
            split
            · next goes =>
                have less := lighter goes
                rw [sameReader] at less
                omega
            · omega)
          rwa [sameLimit', sameLimit] at scanned
      · -- the reader has ended
        have holds := ready.holds
        rw [Holds, open_] at holds
        rcases holds with ⟨bytes, same, bound⟩
        by_cases none_ : s.buffer.data = []
        · have split : s.split = (0, none) := by
            rw [Scanner.split, if_pos (.inr (by rw [open_]; exact Option.some_ne_none _)), none_,
              open_]
            rfl
          rw [scanWithin, split]
          simp only [open_, ne_eq, reduceCtorEq, not_false_eq_true, if_true]
          exact .stop (bytes.trans none_) (congrArg some same.symm)
        · have split : s.split = (s.buffer.data.length, some (dropCR s.buffer.data).length) := by
            rw [Scanner.split, if_pos (.inl none_), open_]
            exact scanLines_last lined none_
          rw [scanWithin, split]
          have past : (s.buffer.advance s.buffer.data.length).data = [] := by
            rw [Buffer.advance]
            simp
          refine .last (by rwa [bytes]) (by rwa [bytes]) ?_ ?_ past ?_
            (by rw [same]; exact open_) rfl
          · rw [bytes]
            rcases bound with together | short
            · rcases Nat.lt_or_eq_of_le fits with short | equal
              · exact .inl short
              · exact .inr ⟨equal, together⟩
            · exact .inl short
          · rw [bytes]
            exact text_advance (List.append_nil _).symm _
          · refine ⟨?_, ?_, ?_⟩
            · rw [Buffer.size_advance]
              exact ready.some_
            · rw [Buffer.size_advance]
              exact ready.size
            · rw [Holds]
              simp only [open_, past]
              refine ⟨trivial, same, .inr ?_⟩
              have some_ := ready.some_
              have size := ready.size
              simp only [List.length_nil]
              omega

/-- A scan hands out what comes next in the source, and the scanner holds what is left. -/
theorem scan_spec {s : Scanner} {source : Source} (ready : s.Ready source) :
    Scans s.maxTokenSize source s.scan.1 s.scan.2 := by
  apply scanWithin_spec ready
  split
  · exact Nat.le_refl _
  · omega

/-- Writing behind the line leaves the line and what is left as they are. -/
theorem append_text (token : Slice) (char : Char) (s : Scanner) :
    (s.append token char).1 = s.text token ++ [char] ∧
      (s.append token char).2.text token = s.text token := by
  refine ⟨rfl, ?_⟩
  rw [append]
  simp only
  split
  · exact Buffer.text_set token char s.buffer
  · rfl

theorem Ready.append {s : Scanner} {source : Source} (ready : s.Ready source) {token : Slice}
    (behind : token.stop < s.buffer.past.length ∨ s.buffer.data = []) (char : Char) :
    (s.append token char).2.Ready source ∧
      (s.append token char).2.maxTokenSize = s.maxTokenSize := by
  rw [Scanner.append]
  simp only
  split
  · have kept : (s.buffer.set token.stop char).data = s.buffer.data := by
      rcases behind with before | none_
      · exact Buffer.data_set before char
      · rw [none_]
        exact Buffer.data_set_nil none_ _ char
    have sized : (s.buffer.set token.stop char).size = s.buffer.size := by
      rw [Buffer.size, Buffer.all_set, List.length_set, Buffer.size]
    refine ⟨⟨?_, ?_, ?_⟩, rfl⟩
    · rw [sized]
      exact ready.some_
    · rw [sized]
      exact ready.size
    · have holds := ready.holds
      rw [Holds] at holds ⊢
      simp only [kept]
      exact holds
  · exact ⟨ready, rfl⟩

end Scanner

def Reader.whole (reader : Reader) : Source :=
  Reader.source Scanner.maxConsecutiveEmptyReads reader

theorem length_source (tries : Nat) (reader : Reader) :
    (Reader.source tries reader).bytes.length ≤ Reader.weight reader := by
  induction reader generalizing tries with
  | nil => exact Nat.le_refl _
  | cons piece rest induction =>
      rw [Scanner.weight_cons]
      rcases goes : piece.fault with _ | fault
      · by_cases empty : piece.bytes = []
        · rw [Scanner.source_nothing goes empty]
          cases tries with
          | zero => exact Nat.zero_le _
          | succ tries => exact Nat.le_trans (induction tries) (Nat.le_add_left _ _)
        · rw [Scanner.source_goes goes empty, List.length_append]
          have later := induction Scanner.maxConsecutiveEmptyReads
          omega
      · rw [Scanner.source_ends goes]
        simp only
        omega

theorem newScanner_ready (reader : Reader) {size maxTokenSize : Nat} (positive : 0 < size)
    (enough : size ≤ maxTokenSize) :
    (newScanner reader size maxTokenSize).Ready (Reader.whole reader) := by
  have sized : (newScanner reader size maxTokenSize).buffer.size = size := by
    rw [Buffer.size_eq]
    simp [newScanner]
  refine ⟨?_, ?_, ?_⟩
  · rwa [sized]
  · rwa [sized]
  · rfl

/-! ## The lines of a source -/

theorem splitChars_some (separator : Char) (chars : Line) : splitChars separator chars ≠ [] := by
  cases chars with
  | nil => simp [splitChars]
  | cons char rest =>
      rw [splitChars]
      split
      · simp
      · split
        · simp
        · simp

section

variable {line rest : Line} (single : '\n' ∉ line)
include single

theorem parts_line : (splitChars '\n' (line ++ '\n' :: rest)).dropLast =
      line :: (splitChars '\n' rest).dropLast ∧
    (splitChars '\n' (line ++ '\n' :: rest)).getLast? = (splitChars '\n' rest).getLast? := by
  rw [splitChars_append single]
  have some_ := splitChars_some '\n' rest
  cases parts : splitChars '\n' rest with
  | nil => exact absurd parts some_
  | cons first more => exact ⟨rfl, rfl⟩

theorem linesOf_line : linesOf (line ++ '\n' :: rest) = dropCR line :: linesOf rest := by
  rw [linesOf, (parts_line single).1, (parts_line single).2]
  rfl

theorem linesOf_last (some_ : line ≠ []) : linesOf line = [dropCR line] := by
  rw [linesOf, splitChars_of_not_mem single]
  simp [some_]

theorem fits_line {limit : Nat} {source : Source} (spelled : source.bytes = line ++ '\n' :: rest) :
    source.Fits limit ↔ line.length < limit ∧ Source.Fits limit { source with bytes := rest } := by
  rw [Source.Fits, Source.Fits, spelled, (parts_line single).1, (parts_line single).2,
    List.forall_mem_cons, and_assoc]

end

theorem fits_single {limit : Nat} {source : Source} (single : '\n' ∉ source.bytes) :
    source.Fits limit ↔ source.bytes.length < limit ∨
      source.bytes.length = limit ∧ source.together = true := by
  rw [Source.Fits, splitChars_of_not_mem single]
  simp

/-- What is handed out is all lines if they fit, and an overlong line ends the scan. -/
theorem Yields.lines {limit : Nat} (positive : 0 < limit) {source : Source} {lines : List Line}
    {fault : Fault} (yields : Yields limit source lines fault) :
    (source.Fits limit ∧ lines = linesOf source.bytes ∧ fault = source.fault) ∨
      (¬source.Fits limit ∧ fault = .tooLong) := by
  induction yields with
  | line spelled single short later induction =>
      rw [fits_line single spelled, spelled, linesOf_line single]
      rcases induction with ⟨fits, rfl, same⟩ | ⟨fits, same⟩
      · exact .inl ⟨⟨short, fits⟩, rfl, same⟩
      · exact .inr ⟨fun both => fits both.2, same⟩
  | last some_ single fits =>
      exact .inl ⟨(fits_single single).mpr fits, (linesOf_last single some_).symm, rfl⟩
  | stop none_ =>
      have single : '\n' ∉ ([] : Line) := List.not_mem_nil
      rw [fits_single (by rw [none_]; exact single), none_]
      exact .inl ⟨.inl positive, rfl, rfl⟩
  | @tooLong source line rest spelled single long alone =>
      refine .inr ⟨?_, rfl⟩
      by_cases lined : '\n' ∈ rest
      · rcases List.eq_append_cons_of_mem lined with ⟨more, after, rfl, clear⟩
        have whole : '\n' ∉ line ++ more := by
          rw [List.mem_append]
          exact fun either => either.elim single clear
        rw [fits_line whole (by rw [spelled, List.append_assoc]), List.length_append]
        omega
      · have whole : '\n' ∉ source.bytes := by
          rw [spelled, List.mem_append]
          exact fun either => either.elim single lined
        rw [fits_single whole, spelled, List.length_append]
        rintro (short | ⟨equal, together⟩)
        · omega
        · have none_ : rest = [] := List.length_eq_zero_iff.mp (by omega)
          rw [alone none_] at together
          cases together

/-- Nothing is left to yield. -/
theorem yields_nil {limit : Nat} (positive : 0 < limit) {source : Source}
    (none_ : source.bytes = [])
    {lines : List Line} {fault : Fault} (yields : Yields limit source lines fault) :
    lines = [] ∧ fault = source.fault := by
  cases yields with
  | line spelled => simp [none_] at spelled
  | last some_ => exact absurd none_ some_
  | stop => exact ⟨rfl, rfl⟩
  | tooLong spelled single long =>
      rw [none_] at spelled
      rw [(List.append_eq_nil_iff.mp spelled.symm).1] at long
      exact absurd long (Nat.ne_of_lt positive)

/-- A line that starts with too many characters. -/
theorem yields_tooLong {limit : Nat} {source : Source} {line rest : Line}
    (spelled : source.bytes = line ++ rest) (single : '\n' ∉ line) (long : limit ≤ line.length)
    (alone : line.length = limit → rest = [] → source.together = false) :
    Yields limit source [] .tooLong := by
  have cut : source.bytes = line.take limit ++ (line.drop limit ++ rest) := by
    rw [← List.append_assoc, List.take_append_drop, spelled]
  refine .tooLong cut (fun member => single (List.mem_of_mem_take member)) ?_ fun none_ => ?_
  · rw [List.length_take]
    omega
  · rcases List.append_eq_nil_iff.mp none_ with ⟨exact_, none_⟩
    exact alone (Nat.le_antisymm (List.drop_eq_nil_iff.mp exact_) long) none_

/-- Every source yields lines up to some end. -/
theorem yields_exists (limit : Nat) (source : Source) :
    ∃ lines fault, Yields limit source lines fault := by
  induction size : source.bytes.length using Nat.strong_induction_on generalizing source with
  | _ bound induction =>
      by_cases lined : '\n' ∈ source.bytes
      · rcases List.eq_append_cons_of_mem lined with ⟨line, rest, spelled, single⟩
        by_cases short : line.length < limit
        · have fewer : rest.length < bound := by
            rw [← size, spelled, List.length_append, List.length_cons]
            omega
          rcases induction _ fewer { source with bytes := rest } rfl with ⟨lines, fault, later⟩
          exact ⟨_, _, .line spelled single short later⟩
        · exact ⟨_, _, yields_tooLong spelled single (by omega) (by simp)⟩
      · by_cases none_ : source.bytes = []
        · exact ⟨_, _, .stop none_⟩
        by_cases fits : source.bytes.length < limit ∨
            source.bytes.length = limit ∧ source.together = true
        · exact ⟨_, _, .last none_ lined fits⟩
        · rw [not_or, not_and] at fits
          exact ⟨_, _, yields_tooLong (List.append_nil _).symm lined (by omega)
            fun exact_ _ => by simpa using fits.2 exact_⟩

end Homelab.LineScanner
