import Homelab.Foundation.Decimal

/-! # Alerts with a cooldown

The state machine of `pid-budget-alert.sh` and `cpu-load-alert.sh`. It remembers when it
last notified and how severe that was, in a file of three lines. The laws of its
notifications are about any sequence of samples whose clocks do not go back.
-/

namespace Homelab.HostAlerts

open Text

inductive Severity
  | quiet
  | warn
  | crit
deriving DecidableEq, Repr

def Severity.digit : Severity → String
  | .quiet => "0"
  | .warn => "1"
  | .crit => "2"

/-- A notification. One about a quiet sample says that the alert is cleared. -/
structure Notice where
  title : String
  priority : String
  tags : String
  body : String
deriving DecidableEq

structure Messages where
  crit : Notice
  warn : Notice
  cleared : (lastSev : String) → Notice

structure Reading where
  now : Nat
  value : String
  severity : Severity
  messages : Messages

/-! ## The state file -/

def mapfile (text : String) : List String :=
  let pieces := split '\n' text
  if pieces.getLast? = some "" then pieces.dropLast else pieces

/-- `read_state`, as the script reads it into `s`. -/
def readState (file : Option String) : List String :=
  mapfile (file.getD "0\n0\n0\n")

/-- `${s[index]:-0}` -/
def field (lines : List String) (index : Nat) : String :=
  let text := lines.getD index ""
  if text = "" then "0" else text

def writeState (ts value sev : String) : String := printLines [ts, value, sev]

/-- The number that arithmetic reads in a variable. -/
def arith (text : String) : Int := (parseInt text).getD 0

/-! ## The state machine -/

/-- What is sent for a sample and what is left in the state file. -/
def react (cooldownHours : Int) (reading : Reading) (file : Option String) :
    Option (Severity × Notice) × String :=
  let s := readState file
  let lastTs := field s 0
  let lastSev := field s 2
  let ageHours := ((reading.now : Int) - arith lastTs).tdiv 3600
  let now := toString reading.now
  match reading.severity with
  | .crit =>
      if lastSev ≠ "2" ∨ cooldownHours ≤ ageHours then
        (some (.crit, reading.messages.crit), writeState now reading.value "2")
      else (none, writeState lastTs reading.value "2")
  | .warn =>
      if lastSev = "0" ∨ cooldownHours ≤ ageHours then
        (some (.warn, reading.messages.warn), writeState now reading.value "1")
      else (none, writeState lastTs reading.value lastSev)
  | .quiet =>
      (if lastSev ≠ "0" then some (.quiet, reading.messages.cleared lastSev) else none,
        writeState now reading.value "0")

/-! ## What the state file stands for -/

/-- The time of the last notification, or of a quiet sample after it, and what fired. -/
structure Memory where
  last : Nat
  fired : Severity
deriving DecidableEq

def Memory.initial : Memory := ⟨0, .quiet⟩

def Memory.next (cooldownHours : Int) (now : Nat) (severity : Severity) (memory : Memory) :
    Option Severity × Memory :=
  let cooled := cooldownHours ≤ ((now : Int) - memory.last).tdiv 3600
  match severity with
  | .crit =>
      if memory.fired ≠ .crit ∨ cooled then (some .crit, ⟨now, .crit⟩)
      else (none, ⟨memory.last, .crit⟩)
  | .warn =>
      if memory.fired = .quiet ∨ cooled then (some .warn, ⟨now, .warn⟩)
      else (none, memory)
  | .quiet => (if memory.fired ≠ .quiet then some .quiet else none, ⟨now, .quiet⟩)

/-- The file holds the memory, or there is none and nothing to remember. -/
def Stands (memory : Memory) (file : Option String) : Prop :=
  (file = none ∧ memory = .initial) ∨
    ∃ value, OneLine value ∧
      file = some (writeState (toString memory.last) value memory.fired.digit)

theorem digit_inj {severity other : Severity} :
    severity.digit = other.digit ↔ severity = other := by
  cases severity <;> cases other <;> decide

theorem mapfile_printLines {lines : List String} (single : ∀ line ∈ lines, OneLine line) :
    mapfile (printLines lines) = lines := by
  simp [mapfile, split_printLines single]

theorem readState_stands {memory : Memory} {file : Option String}
    (stands : Stands memory file) :
    field (readState file) 0 = toString memory.last ∧
      field (readState file) 2 = memory.fired.digit := by
  rcases stands with ⟨rfl, rfl⟩ | ⟨value, single, rfl⟩
  · decide
  · have lines : readState (some (writeState (toString memory.last) value memory.fired.digit)) =
        [toString memory.last, value, memory.fired.digit] := by
      apply mapfile_printLines
      simp only [List.forall_mem_cons, List.not_mem_nil, false_implies, implies_true, and_true]
      refine ⟨(spaceless_toString _).oneLine, single, ?_⟩
      cases memory.fired <;> decide
    rw [lines]
    constructor
    · simp [field]
    · cases memory.fired <;> rfl

/-- The script does with its file what the machine does with its memory. -/
theorem react_stands {memory : Memory} {file : Option String} {reading : Reading}
    (cooldownHours : Int) (single : OneLine reading.value) (stands : Stands memory file) :
    (react cooldownHours reading file).1.map Prod.fst =
        (memory.next cooldownHours reading.now reading.severity).1 ∧
      Stands (memory.next cooldownHours reading.now reading.severity).2
        (some (react cooldownHours reading file).2) := by
  have fields := readState_stands stands
  have last : arith (toString memory.last) = memory.last := by
    rw [arith, parseInt_toString]
    rfl
  have quiet : memory.fired.digit = "0" ↔ memory.fired = .quiet :=
    (digit_inj : memory.fired.digit = Severity.quiet.digit ↔ _)
  have crit : memory.fired.digit = "2" ↔ memory.fired = .crit :=
    (digit_inj : memory.fired.digit = Severity.crit.digit ↔ _)
  simp only [react, Memory.next, fields.1, fields.2, last, quiet, crit, ne_eq]
  cases reading.severity with
  | crit =>
      by_cases fires : ¬memory.fired = .crit ∨
          cooldownHours ≤ ((reading.now : Int) - memory.last).tdiv 3600
      · simp only [if_pos fires]
        exact ⟨rfl, .inr ⟨_, single, rfl⟩⟩
      · simp only [if_neg fires]
        exact ⟨rfl, .inr ⟨_, single, rfl⟩⟩
  | warn =>
      by_cases fires : memory.fired = .quiet ∨
          cooldownHours ≤ ((reading.now : Int) - memory.last).tdiv 3600
      · simp only [if_pos fires]
        exact ⟨rfl, .inr ⟨_, single, rfl⟩⟩
      · simp only [if_neg fires]
        exact ⟨rfl, .inr ⟨_, single, rfl⟩⟩
  | quiet =>
      refine ⟨?_, .inr ⟨_, single, rfl⟩⟩
      simp only
      split <;> rfl

end Homelab.HostAlerts
