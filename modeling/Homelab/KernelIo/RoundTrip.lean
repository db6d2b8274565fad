import Homelab.Foundation.Double
import Homelab.KernelIo.Snapshot

/-! # Reading a file back, and what is too large for it

Here numbers are doubles, so that of a long enough row of digits there is none: `float` makes
infinity of it, and `int` raises. Up to there reading takes any text, and lines that are no
samples make no difference to it.
-/

namespace Homelab.KernelIo

open Text

/-! ## Times -/

/-- A time, as a `float`. The size of a negative one is what follows its sign. -/
inductive Stamp
  | finite (negative : Bool) (size : ℚ)
  | infinite (negative : Bool)
  | nan

/-- `f"{now:.0f}"`. -/
def Stamp.text (now : Stamp) : Line :=
  match now with
  | .finite false size => Nat.toDigits 10 (Double.roundEven size).toNat
  | .finite true size => '-' :: Nat.toDigits 10 (Double.roundEven size).toNat
  | .infinite false => ['i', 'n', 'f']
  | .infinite true => ['-', 'i', 'n', 'f']
  | .nan => ['n', 'a', 'n']

def stampLines (now : Stamp) : List Line :=
  [comment ("HELP homelab_kernel_io_scan_timestamp_seconds " ++
      "Unix time of the last successful scan."),
    comment "TYPE homelab_kernel_io_scan_timestamp_seconds gauge",
    timestampMark ++ now.text]

/-- Render the textfile-collector exposition for the counts, at any time. -/
def renderPromAt (counts : Counts) (now : Stamp) (bootId : Option String)
    (lastBoot : Option Counts) : List Line :=
  eventLines counts ++ (lastBoot.map lastBootLines).getD [] ++
    (bootId.map bootIdLines).getD [] ++ stampLines now

theorem renderPromAt_seconds (counts : Counts) (now : Nat) (bootId : Option String)
    (lastBoot : Option Counts) :
    renderPromAt counts (.finite false now) bootId lastBoot =
      renderProm counts now bootId lastBoot := by
  have whole : Double.roundEven (now : ℚ) = now := Double.roundEven_intCast now
  have text : (Stamp.finite false now).text = (toString now).toList := by
    rw [Json.toList_toString, Stamp.text, whole, Int.toNat_natCast]
  rw [renderPromAt, renderProm, stampLines, timestampLines, text]

theorem unbroken_text (now : Stamp) : Unbroken now.text := by
  cases now with
  | finite negative size =>
      have digits := unbroken_digits (Double.roundEven size).toNat
      cases negative with
      | false => exact digits
      | true => exact Unbroken.append (by decide : Unbroken ['-']) digits
  | infinite negative => cases negative <;> decide
  | nan => decide

/-! ## Doubles -/

inductive Exception
  | overflowError
deriving DecidableEq

/-- `int(float(value))`. -/
def intOfFloat (value : ℚ) : Except Exception Int :=
  match Double.nearest value with
  | some double => .ok (Python.trunc double)
  | none => .error .overflowError

namespace Doubles

/-- One line of `parse_prom`. -/
def readLine (previous : Previous) (line : Line) : Except Exception Previous :=
  match readBootId line with
  | some bootId => .ok { previous with bootId := some (.ofList bootId) }
  | none =>
      match readEvent line with
      | none => .ok previous
      | some (snapshot, name, value) =>
          match classes.find? fun class_ => class_.name.toList = name with
          | none => .ok previous
          | some class_ => do
              let value ← intOfFloat value
              if snapshot then
                return { previous with lastBoot := previous.lastBoot.set class_ value }
              else return { previous with counts := previous.counts.set class_ value }

def parseProm (text : List Char) : Except Exception Previous :=
  (lines text).foldlM readLine .initial

end Doubles

/-- The doubles, where what is too large does not matter. -/
def doubles : Floats where
  round value := (Double.nearest value).getD 0
  exact value small := by
    have small : |value| ≤ 2 ^ 53 := by exact_mod_cast small
    rw [Double.nearest_intCast small, Option.getD_some]

/-- A sample of a known class whose value is too large for a double. -/
def overflows (line : Line) : Bool :=
  match readBootId line with
  | some _ => false
  | none =>
      match readEvent line with
      | none => false
      | some (_, name, value) =>
          (classes.find? fun class_ => class_.name.toList = name).isSome &&
            (Double.nearest value).isNone

theorem readLine_doubles (previous : Previous) (line : Line) :
    Doubles.readLine previous line =
      if overflows line then .error .overflowError
      else .ok (readLine doubles previous line) := by
  cases boot : readBootId line with
  | some bootId => simp [Doubles.readLine, overflows, readLine, boot]
  | none =>
      cases event : readEvent line with
      | none => simp [Doubles.readLine, overflows, readLine, boot, event]
      | some sample =>
          rcases sample with ⟨snapshot, name, value⟩
          cases known : classes.find? fun class_ => class_.name.toList = name with
          | none => simp [Doubles.readLine, overflows, readLine, boot, event, known]
          | some class_ =>
              cases near : Double.nearest value with
              | none =>
                  simp only [Doubles.readLine, overflows, boot, event, known, intOfFloat, near]
                  rfl
              | some double =>
                  cases snapshot <;>
                  · simp only [Doubles.readLine, overflows, readLine, boot, event, known,
                      intOfFloat, near, doubles]
                    rfl

/-- Reading raises at the first line that is too large, and only there. -/
theorem parseProm_doubles (text : List Char) :
    Doubles.parseProm text =
      if (lines text).any overflows then .error .overflowError
      else .ok (parseProm doubles text) := by
  rw [Doubles.parseProm, parseProm]
  generalize Previous.initial = previous
  induction lines text generalizing previous with
  | nil => rfl
  | cons line rest induction =>
      rw [List.foldlM_cons, readLine_doubles, List.any_cons, List.foldl_cons]
      cases large : overflows line with
      | true => rfl
      | false => exact induction _

theorem parseProm_ok_iff (text : List Char) :
    (∃ previous, Doubles.parseProm text = .ok previous) ↔
      ∀ line ∈ lines text, overflows line = false := by
  rw [parseProm_doubles]
  cases large : (lines text).any overflows with
  | true =>
      rw [if_pos rfl]
      rcases List.any_eq_true.mp large with ⟨line, member, overflow⟩
      constructor
      · intro read
        rcases read with ⟨previous, impossible⟩
        cases impossible
      · intro none_
        rw [none_ line member] at overflow
        cases overflow
  | false =>
      have none_ : ∀ line ∈ lines text, overflows line = false := by simpa using large
      exact ⟨fun _ => none_, fun _ => ⟨parseProm doubles text, by simp⟩⟩

/-! ## Other lines -/

def Neither (line : Line) : Prop := readBootId line = none ∧ readEvent line = none

instance (line : Line) : Decidable (Neither line) := inferInstanceAs (Decidable (_ ∧ _))

/-- `Inserted texts more`: `more` is `texts` with lines inserted that are no samples. -/
inductive Inserted : List Line → List Line → Prop
  | none : Inserted [] []
  | keep {texts more : List Line} (line : Line) (rest : Inserted texts more) :
      Inserted (line :: texts) (line :: more)
  | insert {texts more : List Line} (line : Line) (neither : Neither line)
      (rest : Inserted texts more) : Inserted texts (line :: more)

theorem readLine_neither (previous : Previous) {line : Line} (neither : Neither line) :
    Doubles.readLine previous line = .ok previous := by
  simp [Doubles.readLine, neither.1, neither.2]

theorem foldlM_inserted {texts more : List Line} (inserted : Inserted texts more)
    (previous : Previous) :
    more.foldlM Doubles.readLine previous = texts.foldlM Doubles.readLine previous := by
  induction inserted generalizing previous with
  | none => rfl
  | keep line rest induction =>
      rw [List.foldlM_cons, List.foldlM_cons]
      exact congrArg (Doubles.readLine previous line >>= ·) (funext induction)
  | insert line neither rest induction =>
      rw [List.foldlM_cons, readLine_neither previous neither]
      exact induction previous

/-! ## The round trip -/

/-- Counts below the first whole number that is no double. -/
def Small (counts : Counts) : Prop := ∀ class_, 0 ≤ counts class_ ∧ counts class_ < 2 ^ 53

theorem Small.counted {counts : Counts} (small : Small counts) : Counted counts := by
  intro class_
  rcases small class_ with ⟨low, high⟩
  exact ⟨(counts class_).toNat, by omega, by omega⟩

theorem overflows_neither {line : Line} (neither : Neither line) : overflows line = false := by
  simp [overflows, neither.1, neither.2]

theorem neither_comment (text : String) : Neither (comment text) :=
  ⟨readBootId_comment text, readEvent_comment text⟩

theorem overflows_event {line : Line} {snapshot : Bool} {name : Line} {value : Nat}
    (event : readEvent line = some (snapshot, name, (value : ℚ))) (small : value ≤ 2 ^ 53) :
    overflows line = false := by
  have near : Double.nearest ((value : ℤ) : ℚ) = some (value : ℚ) :=
    Double.nearest_intCast (by rw [abs_of_nonneg (by omega)]; omega)
  rw [overflows]
  split
  · rfl
  · rw [event]
    have fits : (Double.nearest (value : ℚ)).isNone = false := by
      rw [← Int.cast_natCast, near]
      rfl
    simp only [fits, Bool.and_false]

theorem overflows_eventLines {counts : Counts} (counted : Counted counts) :
    ∀ line ∈ eventLines counts, overflows line = false := by
  simp only [-String.reduceAppend, eventLines, List.forall_mem_append, List.forall_mem_cons]
  refine ⟨⟨overflows_neither (neither_comment _), overflows_neither (neither_comment _),
    by simp⟩, fun line member => ?_⟩
  rcases List.mem_map.mp member with ⟨class_, _, rfl⟩
  rcases counted class_ with ⟨value, same, small⟩
  rw [same]
  exact overflows_event (readEvent_eventLine class_ value) small

theorem overflows_lastBootLines {counts : Counts} (counted : Counted counts) :
    ∀ line ∈ lastBootLines counts, overflows line = false := by
  simp only [-String.reduceAppend, lastBootLines, List.forall_mem_append, List.forall_mem_cons]
  refine ⟨⟨overflows_neither (neither_comment _), overflows_neither (neither_comment _),
    by simp⟩, fun line member => ?_⟩
  rcases List.mem_map.mp member with ⟨class_, _, rfl⟩
  rcases counted class_ with ⟨value, same, small⟩
  rw [same]
  exact overflows_event (readEvent_lastBootLine class_ value) small

theorem overflows_bootIdLines {bootId : String} (legible : Legible bootId) :
    ∀ line ∈ bootIdLines bootId, overflows line = false := by
  simp only [-String.reduceAppend, bootIdLines, List.forall_mem_cons]
  refine ⟨overflows_neither (neither_comment _), overflows_neither (neither_comment _), ?_,
    by simp⟩
  rw [overflows, readBootId_bootIdLine legible]

theorem overflows_stampLines (now : Stamp) :
    ∀ line ∈ stampLines now, overflows line = false := by
  simp only [-String.reduceAppend, stampLines, List.forall_mem_cons]
  exact ⟨overflows_neither (neither_comment _), overflows_neither (neither_comment _),
    overflows_neither ⟨readBootId_timestamp _, readEvent_timestamp _⟩, by simp⟩

theorem readLines_stamp (now : Stamp) (previous : Previous) :
    (stampLines now).foldl (readLine doubles) previous = previous := by
  simp only [-String.reduceAppend, stampLines, List.foldl_cons, List.foldl_nil, readLine_comment,
    readLine_timestamp]

theorem unbroken_stampLines (now : Stamp) : ∀ line ∈ stampLines now, Unbroken line := by
  have mark : Unbroken timestampMark := by
    rw [timestampMark_eq]
    decide
  have help := unbroken_timestampLines 0
  simp only [-String.reduceAppend, timestampLines, List.forall_mem_cons] at help
  simp only [-String.reduceAppend, stampLines, List.forall_mem_cons]
  exact ⟨help.1, help.2.1, mark.append (unbroken_text now), by simp⟩

theorem parseProm_renderPromAt {counts lastBoot : Counts} (counted : Counted counts)
    (snapshot : Counted lastBoot) (now : Stamp) {bootId : String} (legible : Legible bootId) :
    Doubles.parseProm (joined (renderPromAt counts now (some bootId) (some lastBoot))) =
      .ok { bootId := some bootId, counts := counts, lastBoot := lastBoot } := by
  have unbroken : ∀ line ∈ renderPromAt counts now (some bootId) (some lastBoot),
      Unbroken line := by
    simp only [renderPromAt, Option.map_some, Option.getD_some, List.forall_mem_append]
    exact ⟨⟨⟨unbroken_eventLines counted, unbroken_lastBootLines snapshot⟩,
      unbroken_bootIdLines legible⟩, unbroken_stampLines now⟩
  have fits : ∀ line ∈ renderPromAt counts now (some bootId) (some lastBoot),
      overflows line = false := by
    simp only [renderPromAt, Option.map_some, Option.getD_some, List.forall_mem_append]
    exact ⟨⟨⟨overflows_eventLines counted, overflows_lastBootLines snapshot⟩,
      overflows_bootIdLines legible⟩, overflows_stampLines now⟩
  have none_ : (renderPromAt counts now (some bootId) (some lastBoot)).any overflows = false := by
    simpa using fits
  rw [parseProm_doubles, parseProm, lines_joined unbroken, none_, if_neg Bool.false_ne_true]
  simp only [renderPromAt, Option.map_some, Option.getD_some, List.foldl_append,
    readLines_events doubles counted, readLines_lastBoot doubles snapshot,
    readLines_bootId doubles legible, readLines_stamp]

/-- What is rendered reads back as it was, lines that are no samples make no difference
anywhere in any text, and reading raises just where a sample of a known class is too large. -/
theorem kernel_io_round_trip (text : Line) :
    (∀ (counts lastBoot : Counts) (now : Stamp) (bootId : String), Small counts →
      Small lastBoot → Legible bootId →
      Doubles.parseProm (joined (renderPromAt counts now (some bootId) (some lastBoot))) =
        .ok { bootId := some bootId, counts := counts, lastBoot := lastBoot }) ∧
    (∀ more, Inserted (lines text) (lines more) →
      Doubles.parseProm more = Doubles.parseProm text) ∧
    ((∃ previous, Doubles.parseProm text = .ok previous) ↔
      ∀ line ∈ lines text, overflows line = false) := by
  refine ⟨?_, fun more inserted => foldlM_inserted inserted _, parseProm_ok_iff text⟩
  intro counts lastBoot now bootId small smallLast legible
  exact parseProm_renderPromAt small.counted smallLast.counted now legible

theorem kernel_io_round_trip_dropout :
    Doubles.parseProm (joined (renderPromAt zeros .nan (some "b")
      (some (zeros.set .usbDisconnect 3)))) =
        .ok { bootId := some "b", counts := zeros, lastBoot := zeros.set .usbDisconnect 3 } := by
  have none_ : Small zeros := fun class_ => ⟨le_refl 0, by norm_num [zeros]⟩
  have three : Small (zeros.set .usbDisconnect 3) := by
    intro class_
    cases class_ <;> decide
  exact (kernel_io_round_trip []).1 zeros (zeros.set .usbDisconnect 3) .nan "b" none_ three
    ⟨by decide, by decide⟩

/-- A row of four hundred digits, as a half-written file may hold. -/
def tooLarge : Line :=
  "homelab_kernel_io_events\x7bclass=\"usb_reset\"\x7d ".toList ++ List.replicate 400 '9'

theorem raises_too_large :
    ¬ ∃ previous, Doubles.parseProm tooLarge = .ok previous := by
  intro read
  have fits := (parseProm_ok_iff tooLarge).mp read
  have large : ∃ line ∈ lines tooLarge, overflows line = true := by decide +kernel
  rcases large with ⟨line, member, overflow⟩
  rw [fits line member] at overflow
  cases overflow

end Homelab.KernelIo
