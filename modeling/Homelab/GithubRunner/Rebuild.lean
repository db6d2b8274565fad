import Homelab.Foundation.JsonRoundTrip
import Homelab.Foundation.Text

/-! # The rebuild of the runner image

`rebuild-runner-image.sh` is started every day. It reads the time of the last success from the
status file, rebuilds the image where that is long ago, and writes the file anew wherever it
ends. `room` is how deep Python reads lists and objects in one another.
-/

namespace Homelab.GithubRunner.Rebuild

open Text Python

/-! ## What a run meets -/

/-- What becomes of the status file when it is written: it is left as it was, it is replaced, or
it is replaced by what has arrived before the connection broke. -/
inductive Write
  | kept
  | replaced
  | cut (count : Nat)

/-- The clock, the environment, and what the commands of the run come to. -/
structure Run where
  now : Nat
  fits : now < 2 ^ 63
  /-- `date +%F`. -/
  tag : Line
  dated : ∀ char ∈ tag, char.isDigit = true ∨ char = '-'
  /-- What is printed by a read of the status that fails. -/
  readFailure : Option Line
  write : Write
  dockerRuns : Bool
  envFile : Bool
  force : Bool
  /-- The days that `REBUILD_MIN_AGE_DAYS` says, unless it is no number. -/
  minAgeDays : Option Int
  /-- `RUNNER_VERSION` as it is inherited, empty where it is not. -/
  inherited : Line
  ghVersion : Line
  curlVersion : Line
  builds : Bool
  composes : Bool

/-- `RUNNER_VERSION` once it has been looked up. -/
def Run.version (run : Run) : Line :=
  if run.ghVersion = [] then run.curlVersion else run.ghVersion

/-! ## The previous success -/

def statusRead (run : Run) (file : Option Line) : Line × Bool :=
  match run.readFailure, file with
  | some output, _ => (output, false)
  | none, none => ([], false)
  | none, some text => (text, true)

def lastSuccess (room : Nat) (text : Line) : Except Raised Value := do
  let status ← Json.loads (room + 1) (.ofList text)
  status.get "last_success_ts" (.int 0)

/-- `print`. Numbers with a point, names, lists and objects have more than digits in them, and
what they have does not matter. -/
def printed : Value → Line
  | .int value => (toString value).toList
  | .str text => text.toList
  | _ => ['?']

/-- A pipeline with a failure prints a zero as well. -/
def prevSuccess (room : Nat) (run : Run) (file : Option Line) : Line :=
  let (text, ok) := statusRead run file
  let output :=
    match lastSuccess room text with
    | .ok value => printed value ++ '\n' :: if ok then [] else ['0', '\n']
    | .error _ => ['0', '\n']
  let captured := (substitute (.ofList output)).toList
  if captured ≠ [] ∧ captured.all Char.isDigit then captured else ['0']

/-! ## The status -/

def decimal (number : Nat) : Line := Nat.toDigits 10 number

def entry (name : String) (value : Line) : Line :=
  '"' :: name.toList ++ '"' :: ':' :: ' ' :: value

def report (now exit : Nat) (success version tag : Line) : Line :=
  '\x7b' :: entry "last_attempt_ts" (decimal now) ++
    ',' :: ' ' :: entry "last_success_ts" success ++
    ',' :: ' ' :: entry "last_exit_code" (decimal exit) ++
    ',' :: ' ' :: entry "runner_version" ('"' :: version ++ ['"']) ++
    ',' :: ' ' :: entry "image_tag" ('"' :: tag ++ ['"']) ++ ['\x7d', '\n']

example : report 12 1 ['7'] ['2'] [] = ("\x7b\"last_attempt_ts\": 12, \"last_success_ts\": 7, " ++
    "\"last_exit_code\": 1, \"runner_version\": \"2\", \"image_tag\": \"\"\x7d\n").toList := by
  decide +kernel

def writeStatus (run : Run) (file : Option Line) (exit : Nat) (success version tag : Line) :
    Option Line :=
  match run.write with
  | .kept => file
  | .replaced => some (report run.now exit success version tag)
  | .cut count => some ((report run.now exit success version tag).take count)

def orUnknown (version : Line) : Line := if version = [] then "unknown".toList else version

/-! ## The run -/

/-- A number in `$((…))`: octal where it starts with a zero. -/
def arithmetic (digits : Line) : Option Nat :=
  match digits with
  | '0' :: rest =>
      if rest.all fun char => char.toNat < 56 then
        some (rest.foldl (fun value char => value * 8 + (char.toNat - 48)) 0)
      else none
  | _ => some (Json.natOf digits)

def Run.recent (run : Run) (prev : Line) : Bool :=
  match run.minAgeDays, arithmetic prev with
  | some days, some success =>
      !run.force && decide (0 < Json.natOf prev) && decide (Json.natOf prev < 2 ^ 63) &&
        decide (((run.now : Int) - success).tdiv 86400 < days)
  | _, _ => false

/-- The status file that a run leaves, and what it has done. -/
structure Ended where
  file : Option Line
  pushed : Bool
  recreated : Bool

/-- The entry of the image in the environment file is left out. -/
def rebuild (room : Nat) (run : Run) (file : Option Line) : Ended :=
  let prev := prevSuccess room run file
  let fail (version : Line) (pushed : Bool) : Ended :=
    ⟨writeStatus run file 1 prev (orUnknown version) [], pushed, false⟩
  if !run.dockerRuns then fail run.inherited false
  else if !run.envFile then fail run.inherited false
  else if run.recent prev then
    ⟨writeStatus run file 0 prev (orUnknown run.inherited) [], false, false⟩
  else if run.version = [] then fail run.version false
  else if !run.builds then fail run.version false
  else if !run.composes then fail run.version true
  else ⟨writeStatus run file 0 (decimal run.now) run.version run.tag, true, true⟩

/-! ## The recorded success -/

/-- The `last_success_ts` of a status file, 0 where there is no file yet. -/
def recorded (room : Nat) : Option Line → Option Int
  | none => some 0
  | some text =>
      match lastSuccess room text with
      | .ok (.int value) => some value
      | _ => none

/-- A run takes the recorded success nowhere but on to its own time, once it has pushed the image
and recreated the supervisor. -/
def Advances (room : Nat) (run : Run) (file : Option Line) : Prop :=
  ∃ before after, recorded room file = some before ∧
    recorded room (rebuild room run file).file = some after ∧ before ≤ after ∧
    (after ≠ before →
      after = run.now ∧ (rebuild room run file).pushed = true ∧
        (rebuild room run file).recreated = true)

/-- The property holds of every run, each one with the file that the one before it has left. -/
def Along (room : Nat) (property : Run → Option Line → Prop) : Option Line → List Run → Prop
  | _, [] => True
  | file, run :: rest =>
      property run file ∧ Along room property (rebuild room run file).file rest

/-! ## When the record is kept -/

/-- The text can stand between the quotes of the status. -/
def Legible (version : Line) : Prop := ∃ text, Json.Quotes version text

def Run.early (run : Run) (prev : Line) : Bool :=
  !run.dockerRuns || !run.envFile || run.recent prev

def Run.reported (run : Run) (prev : Line) : Line :=
  orUnknown (if run.early prev then run.inherited else run.version)

def Run.Succeeds (run : Run) : Prop :=
  run.dockerRuns = true ∧ run.envFile = true ∧ run.version ≠ [] ∧ run.builds = true ∧
    run.composes = true

/-- The status is replaced by a whole one that can be read, and where a success has been
recorded, it is read, or the run is a success of its own. -/
structure Run.Faithful (room : Nat) (run : Run) (file : Option Line) : Prop where
  whole : ∀ count, run.write ≠ .cut count
  legible : Legible (run.reported (prevSuccess room run file))
  baseline : run.readFailure = none ∨ recorded room file = some 0 ∨ run.Succeeds

def Run.Keeps (room : Nat) (run : Run) (file : Option Line) : Prop :=
  run.write = .kept ∨ run.Faithful room file

end Homelab.GithubRunner.Rebuild
