import Homelab.Backup.Recipe
import Homelab.Foundation.Search

/-! # The state file of a backup run

The orchestrator keeps what each recipe printed, counts it with a glob and `sed`, and puts it
into the state file as it is. The control panel reads that file as JSON.
-/

namespace Homelab.Backup

open Text Python

/-! ## What the shell reads -/

/-- `$(…)`: no zero bytes, and no newlines at the end. -/
def captured (output : Line) : Line :=
  ((output.filter (· ≠ .ofNat 0)).reverse.dropWhile (· = '\n')).reverse

/-- The group of `s/.*KEY([CLASS]+)CLOSE.*/\1/p`. -/
structure Group where
  key : Line
  accepts : Char → Bool
  close : Line

def Group.here (group : Group) (line : Line) : Option Line :=
  if group.key.isPrefixOf line then
    let rest := line.drop group.key.length
    let word := rest.takeWhile group.accepts
    if word ≠ [] ∧ group.close.isPrefixOf (rest.dropWhile group.accepts) then some word else none
  else none

def Group.last (group : Group) : Line → Option Line := rightmost group.here

/-- `$(printf '%s' TEXT | sed -nE …)`. -/
def Group.read (group : Group) (text : Line) : Line :=
  captured (joined ((splitChars '\n' text).filterMap group.last))

/-- `s/.*"bytes":([0-9]+).*/\1/p`. -/
def bytesGroup : Group := ⟨"\"bytes\":".toList, Char.isDigit, []⟩

/-- `s/.*"service":"([^"]+)".*/\1/p`. -/
def serviceGroup : Group := ⟨"\"service\":\"".toList, (· ≠ '"'), ['"']⟩

/-- Digits in `$((…))`, which are octal after a zero. -/
def number (digits : Line) : Option Int :=
  if digits.all Char.isDigit then
    match digits with
    | '0' :: octal =>
        if octal.all (fun digit => digit ≠ '8' ∧ digit ≠ '9') then
          some (octal.foldl (fun value digit => value * 8 + (digit.toNat - 48)) 0 : Nat)
        else none
    | digits => some (Json.natOf digits)
  else none

/-- The arithmetic of the shell has 64 bits. -/
def wrapped (value : Int) : Int := value.bmod (2 ^ 64)

def InWord (value : Int) : Prop := -2 ^ 63 ≤ value ∧ value < 2 ^ 63

instance (value : Int) : Decidable (InWord value) := inferInstanceAs (Decidable (_ ∧ _))

/-! ## Services -/

/-- What a recipe can have printed: numbers of the shell, a size, and one line. -/
def Ending.Printable : Ending → Prop
  | .ok bytes durationMs entries =>
      0 ≤ bytes ∧ InWord bytes ∧ InWord durationMs ∧ ∀ number ∈ entries, InWord number
  | .fail durationMs error => InWord durationMs ∧ .ofNat 0 ∉ error ∧ '\n' ∉ error

instance (ending : Ending) : Decidable ending.Printable :=
  match ending with
  | .ok _ _ _ => inferInstanceAs (Decidable (_ ∧ _ ∧ _ ∧ _))
  | .fail _ _ => inferInstanceAs (Decidable (_ ∧ _ ∧ _))

inductive Outcome
  /-- There is no recipe to run. -/
  | missing
  /-- The recipe ended without its status line. -/
  | died
  | printed (ending : Ending) (printable : ending.Printable)

structure Service where
  name : Line
  method : Method
  outcome : Outcome

def Service.runService (service : Service) : Line :=
  match service.outcome with
  | .missing =>
      "\x7b\"service\":\"".toList ++ service.name ++ "\",\"method\":\"".toList ++
        service.method.name.toList ++
        "\",\"status\":\"fail\",\"bytes\":0,\"duration_ms\":0,\"error\":\"recipe ".toList ++
        "/usr/local/bin/backup-".toList ++ service.method.name.toList ++ ".sh missing\"\x7d".toList
  | .died => []
  | .printed ending _ => Report.line ⟨service.name, service.method, ending⟩

def Service.result (service : Service) : Line := captured service.runService

/-- `case "$result" in *'"status":"ok"'*`. -/
def countedOk (result : Line) : Bool := contains "\"status\":\"ok\"" result

structure Counts where
  ok : Int
  failed : Int
  totalBytes : Int

/-- Where `$((…))` takes no number, the rest of the branch is left out. -/
def Counts.add (counts : Counts) (result : Line) : Counts :=
  if countedOk result then
    let bytes := bytesGroup.read result
    let counts := { counts with ok := wrapped (counts.ok + 1) }
    match if bytes = [] then some 0 else number bytes with
    | some bytes => { counts with totalBytes := wrapped (counts.totalBytes + bytes) }
    | none => counts
  else { counts with failed := wrapped (counts.failed + 1) }

/-! ## The state file -/

/-- `date -u +%Y-%m-%dT%H:%M:%SZ`. -/
structure Stamp where
  text : Line
  plain : ∀ char ∈ text, Json.Plain char ∧ char.toNat < 127

structure Word where
  value : Int
  inWord : InWord value

structure Run where
  services : List Service
  started : Stamp
  ended : Stamp
  durationMs : Word
  freeGb : Word
  removed : Word

def Run.results (run : Run) : List Line := run.services.map Service.result

def Run.counts (run : Run) : Counts := run.results.foldl Counts.add ⟨0, 0, 0⟩

/-- One line of the `per_service` map. -/
def entry (line : Line) : Line := '"' :: serviceGroup.read line ++ "\":".toList ++ line

def perService (lines : List Line) : Line :=
  '\x7b' :: [','].intercalate (lines.map entry) ++ ['\x7d']

def Run.header (run : Run) : Line :=
  "\x7b\n  \"last_run_ts\": \"".toList ++ run.ended.text ++
    "\",\n  \"started\": \"".toList ++ run.started.text ++
    "\",\n  \"status\": \"".toList ++
    (if run.counts.failed > 0 then "fail" else "ok").toList ++
    "\",\n  \"ok\": ".toList ++ decimal run.counts.ok ++
    ",\n  \"failed\": ".toList ++ decimal run.counts.failed ++
    ",\n  \"total_bytes\": ".toList ++ decimal run.counts.totalBytes ++
    ",\n  \"duration_ms\": ".toList ++ decimal run.durationMs.value ++
    ",\n  \"free_gb_at_start\": ".toList ++ decimal run.freeGb.value ++
    ",\n  \"prune_removed\": ".toList ++ decimal run.removed.value ++
    ",\n  \"per_service\": ".toList

def Run.stateFile (run : Run) : Line :=
  run.header ++ perService run.results ++ "\n\x7d\n".toList

/-! ## The control panel -/

/-- How deep the interpreter reads, and `BACKUP_LOG_TAIL_LINES`. -/
structure Panel where
  depth : Nat
  tailLines : Nat
  deep : 3 ≤ depth

def readlines : Line → List Line
  | [] => []
  | char :: rest =>
      if char = '\n' then ['\n'] :: readlines rest
      else
        match readlines rest with
        | [] => [[char]]
        | line :: others => (char :: line) :: others

/-- `lines[-count:]`. -/
def lastOf (count : Nat) (lines : List Line) : List Line :=
  if count = 0 then lines else lines.drop (lines.length - count)

structure Status where
  state : Value
  recentLog : List Value

def neverRun : Value :=
  .dict [("last_run_ts", .none), ("status", .str "never_run"), ("per_service", .dict [])]

/-- `json.load` of a file that can be opened, unless the text is no JSON. Here a number of
too many digits is no JSON, too. -/
def readState (panel : Panel) (file : Line) : Except Raised Value :=
  match Utf8.opened file with
  | none => .error .valueError
  | some text =>
      match Json.loads panel.depth (.ofList text) with
      | .error .valueError => .ok neverRun
      | read => read

def readLogLine (panel : Panel) (line : Line) : Except Raised Value :=
  match Json.loads panel.depth (.ofList line) with
  | .error .valueError => .ok (.dict [("raw", .str (strip (.ofList line)))])
  | read => read

def readLog (panel : Panel) (file : Line) : Except Raised (List Value) :=
  match Utf8.opened file with
  | none => .error .valueError
  | some text => (lastOf panel.tailLines (readlines text)).mapM (readLogLine panel)

/-- `get_backup_status`. A file that cannot be opened is `none`. -/
def getBackupStatus (panel : Panel) (stateFile logFile : Option Line) : Except Raised Status := do
  let state ← match stateFile with
    | none => .ok neverRun
    | some file => readState panel file
  let recentLog ← match logFile with
    | none => .ok []
    | some file => readLog panel file
  return ⟨state, recentLog⟩

end Homelab.Backup
