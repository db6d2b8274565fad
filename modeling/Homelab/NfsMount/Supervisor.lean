import Homelab.Effects.Loop
import Homelab.Foundation.Lines
import Mathlib.Algebra.Order.Ring.Rat

/-! # The supervisor of the native NFS mounts

The program `nfs_mount.py`: every command it starts, every clock it reads and the
`PENDING` table of its blocked children are operations. Of its log only the line
that announces an attempt is kept.
-/

namespace Homelab.NfsMount

open Effects Text

inductive Export
  | srv
  | generated
deriving DecidableEq, Repr

namespace Export

def target : Export → String
  | srv => "/Volumes/homelab-srv"
  | generated => "/Volumes/homelab-generated"

def remote : Export → String
  | srv => "/srv"
  | generated => "/home/pi/docker/mac-worker/shared"

/-- `Path(target) / p` for the probes of the export. -/
def probes (name : Export) : List String :=
  [".homelab-nfs-probe"].map fun probe => name.target ++ "/" ++ probe

end Export

/-- A dictionary with one value for each of `EXPORTS`. -/
structure PerExport (α : Type) where
  srv : α
  generated : α
deriving DecidableEq, Repr

def PerExport.get {α : Type} (values : PerExport α) : Export → α
  | .srv => values.srv
  | .generated => values.generated

def mountOpts : String := "rw,nolock,noowners,resvport,soft,timeo=30,intr,noac,vers=3"

def sources : List String := ["192.0.2.100", "100.64.0.10"]

def statusFile : String := "/var/run/homelab-nfs.json"

def workerUser : String := "operator"

def nodePlist : String := "/Users/operator/Library/LaunchAgents/io.tdarr.node.plist"

/-- How the program itself was started: `sys.executable` and `__file__`. -/
structure Config where
  python : String
  script : String

/-! ## Data -/

inductive Health
  | healthy
  | hung
  | unknown
  | unmounted
deriving DecidableEq, Repr

inductive Action
  | none
  | mount
  | recover
deriving DecidableEq, Repr

structure Item where
  state : Health
  reason : String
  source : String
deriving DecidableEq, Repr

structure Record where
  failures : Nat
  attemptAt : ℚ
  recoveries : Nat
  recoveryOk : Bool
  lastReadOk : Int
deriving DecidableEq

def Record.initial : Record := ⟨0, -300, 0, false, 0⟩

structure Report where
  item : Item
  recoveries : Nat
  recoveryOk : Bool
  lastReadOk : Int
deriving DecidableEq, Repr

structure Status where
  checkedAt : Int
  exports : PerExport Report
deriving DecidableEq, Repr

/-! ## Operations -/

structure Completed where
  returncode : Int
  stdout : String
  stderr : String
deriving DecidableEq, Repr

abbrev Command := List String

/-- What became of a child: it could not be started, ended in time, ran out of
time (and may still be blocked after the kill), or printed what is not text. -/
inductive Launched
  | refused (message : String)
  | finished (completed : Completed)
  | expired (blocked : Bool)
  | undecodable
deriving DecidableEq, Repr

inductive Operation
  | pending
  | poll (key : Command)
  | forget (key : Command)
  | remember (key : Command)
  | launch (command : Command) (timeout : Nat)
  | monotonic
  | time
  | getpwnam (user : String)
  | isFile (path : String)
  | announce (action : Action) (name : Export) (reason : String)
  | writeStatus (path : String) (status : Status)
  | sleep (seconds : Nat)
deriving DecidableEq, Repr

/-- An answer `none` to `getpwnam` is a `KeyError`, to `isFile` an `OSError`. -/
abbrev Answer : Operation → Type
  | .pending => List Command
  | .poll _ => Bool
  | .launch _ _ => Launched
  | .monotonic => ℚ
  | .time => Int
  | .getpwnam _ => Option Nat
  | .isFile _ => Option Bool
  | .writeStatus _ _ => Bool
  | _ => Unit

abbrev interface : Interface := ⟨Operation, Answer⟩

inductive Exception
  | unicodeDecodeError
  | osError
deriving DecidableEq, Repr

abbrev Py := Attempt interface Exception

def ask (operation : Operation) : Py (Answer operation) :=
  ExceptT.lift (.call operation .done)

/-! ## Commands -/

def retire (key : Command) : Py Unit := do
  if ← ask (.poll key) then ask (.forget key) else pure ()

def reap : List Command → Py Unit
  | [] => pure ()
  | key :: rest => do
      retire key
      reap rest

/-- `run` for a command that is not blocked. -/
def spawn (command : Command) (timeout : Nat) : Py Completed := do
  match ← ask (.launch command timeout) with
  | .refused message => pure ⟨127, "", message⟩
  | .finished completed => pure completed
  | .expired blocked => do
      if blocked then ask (.remember command) else pure ()
      pure ⟨124, "", "operation timed out"⟩
  | .undecodable => throw .unicodeDecodeError

def run (command : Command) (timeout : Nat) : Py Completed := do
  reap (← ask .pending)
  if command ∈ (← ask .pending) then
    pure ⟨124, "", "previous operation still blocked"⟩
  else spawn command timeout

/-! ## Health -/

/-- `mount_status` on the lines that are left. -/
def flagsIn (target : Line) : (inTarget : Bool) → List Line → Health
  | _, [] => .unknown
  | inTarget, line :: rest =>
      if contains " from " line && line.head? ≠ some ' ' then
        flagsIn target (before " from " line = target) rest
      else if inTarget && contains "Status flags:" line then
        let flags := strip (.ofList (after "Status flags:" line))
        if contains "not responding" flags.toList then .hung
        else if flags = "0x0" then .healthy
        else .unknown
      else flagsIn target inTarget rest

def mountStatus (output target : String) : Health :=
  flagsIn target.toList false (splitlines output)

def readProbeCommand (cfg : Config) (path : String) : Command :=
  [cfg.python, cfg.script, "--read-probe", path]

def readProbe (cfg : Config) (path : String) : Py (Bool × String) := do
  let result ← run (readProbeCommand cfg path) 8
  let reason :=
    if result.returncode = 0 then "read_ok"
    else if result.returncode = 2 then "missing_probe"
    else if result.returncode = 3 then "invalid_probe"
    else if result.returncode = 4 then "io_error"
    else if result.returncode = 5 then "read_denied"
    else if result.returncode = 124 then "timeout"
    else "probe_failed"
  pure (result.returncode = 0, reason)

def readProbes (cfg : Config) : List String → Py (Health × String)
  | [] => pure (.healthy, "read_ok")
  | path :: rest => do
      let (ok, reason) ← readProbe cfg path
      if ok then readProbes cfg rest
      else if reason = "timeout" ∨ reason = "io_error" then pure (.hung, reason)
      else pure (.unknown, reason)

def Health.text : Health → String
  | healthy => "healthy"
  | hung => "hung"
  | unknown => "unknown"
  | unmounted => "unmounted"

def health (cfg : Config) (target : String) (probes : List String)
    (status : Completed) : Py (Health × String) :=
  if status.returncode ≠ 0 then pure (.unknown, "nfsstat_failed")
  else
    match mountStatus status.stdout target with
    | .healthy => readProbes cfg probes
    | state => pure (state, "nfsstat_" ++ state.text)

/-! ## Mounts -/

/-- A white-space-free word with a colon inside it: `\S+:\S+`. -/
def isSource (word : Line) : Bool := (word.drop 1).dropLast.contains ':'

/-- The line goes on with ` \(nfs[,)]`. -/
def isNfs (line : Line) : Bool :=
  " (nfs,".toList.isPrefixOf line || " (nfs)".toList.isPrefixOf line

/-- The longest beginning of the line that `isNfs` follows: `.*`, which is greedy. -/
def longest : Line → Option Line
  | [] => none
  | char :: rest =>
      match longest rest with
      | some found => some (char :: found)
      | none => if isNfs (char :: rest) then some [] else none

/-- `re.match(r"(\S+:\S+) on (.+) \(nfs[,)]", line)`: the mount point and the
source. -/
def matchMount (line : Line) : Option (Line × Line) :=
  let word := line.takeWhile fun char => !isSpace char
  let rest := line.dropWhile fun char => !isSpace char
  if isSource word && " on ".toList.isPrefixOf rest then
    match rest.drop 4 with
    | [] => none
    | char :: rest => (longest rest).map fun found => (char :: found, word)
  else none

def readMounts (output : String) : List (Line × Line) :=
  ((splitlines output).filterMap matchMount).reverse

def mountList : Command := ["/sbin/mount"]

def mountedSources : Py (Option (List (Line × Line))) := do
  let result ← run mountList 10
  if result.returncode ≠ 0 then pure none else pure (some (readMounts result.stdout))

def nfsstat : Command := ["/usr/bin/nfsstat", "-m"]

def inspectExport (cfg : Config) (sources : Option (List (Line × Line)))
    (status : Completed) (name : Export) : Py Item := do
  let source := String.ofList (((sources.getD []).lookup name.target.toList).getD [])
  if sources = none then pure ⟨.unknown, "mount_list_failed", source⟩
  else if source = "" then pure ⟨.unmounted, "mount_absent", source⟩
  else do
    let (state, reason) ← health cfg name.target name.probes status
    pure ⟨state, reason, source⟩

def inspect (cfg : Config) : Py (PerExport Item) := do
  let sources ← mountedSources
  let status ← run nfsstat 10
  let srv ← inspectExport cfg sources status .srv
  let generated ← inspectExport cfg sources status .generated
  pure ⟨srv, generated⟩

def allHealthy (exports : PerExport Item) : Bool :=
  exports.srv.state = .healthy && exports.generated.state = .healthy

/-! ## Recovery -/

def decide (state : Health) (failures : Nat) (elapsed : ℚ)
    (reachable everReadOk : Bool) : Action :=
  if reachable = false ∨ elapsed < 300 then .none
  else if state = .unmounted then .mount
  else if state = .hung ∧ 2 ≤ failures then
    if everReadOk then .recover else .none
  else .none

def umount (target : String) : Command := ["/sbin/umount", "-f", target]

def diskutil (target : String) : Command :=
  ["/usr/sbin/diskutil", "unmount", "force", target]

def mkdir (target : String) : Command := ["/bin/mkdir", "-p", target]

def mountNfs (source target : String) : Command :=
  ["/sbin/mount_nfs", "-o", mountOpts, source, target]

/-- `recover` up to the check of the mount list. -/
def unmount (target : String) : Py Bool := do
  let first ← run (umount target) 15
  if first.returncode = 0 then pure true
  else do
    let second ← run (diskutil target) 15
    pure (second.returncode = 0)

/-- `recover` from the check of the mount list on. -/
def remount (source target : String) : Py Bool := do
  match ← mountedSources with
  | none => pure false
  | some mounted =>
      if (mounted.lookup target.toList).isSome then pure false
      else do
        let made ← run (mkdir target) 10
        if made.returncode ≠ 0 then pure false
        else do
          let result ← run (mountNfs source target) 30
          pure (result.returncode = 0)

def recover (source target : String) (action : Action) : Py Bool := do
  if action = .recover then do
    if ← unmount target then remount source target else pure false
  else remount source target

def netcat (ip : String) : Command :=
  ["/usr/bin/nc", "-z", "-G", "2", "-w", "2", ip, "2049"]

/-- `pick_source` over the addresses that are left. -/
def pickFrom : List String → Py String
  | [] => pure ""
  | ip :: rest => do
      let result ← run (netcat ip) 3
      if result.returncode = 0 then pure ip else pickFrom rest

def pickSource : Py String := pickFrom sources

/-! ## The worker -/

def launchctlPrint (label : String) : Command := ["/bin/launchctl", "print", label]

def bootout (label : String) : Command := ["/bin/launchctl", "bootout", label]

def bootstrap (domain : String) : Command :=
  ["/bin/launchctl", "bootstrap", domain, nodePlist]

/-- The launchd domain whose worker was stopped, `""` if there was none to stop, or
nothing if the recovery is refused. -/
def stopWorker : Py (Option String) := do
  match ← ask (.getpwnam workerUser) with
  | none => pure none
  | some workerUid =>
      let candidate := "gui/" ++ toString workerUid
      let label := candidate ++ "/io.tdarr.node"
      let loaded ← run (launchctlPrint label) 10
      if loaded.returncode = 0 then
        match ← ask (.isFile nodePlist) with
        | none => throw .osError
        | some false => pure none
        | some true => do
            let stopped ← run (bootout label) 20
            if stopped.returncode ≠ 0 then pure none else pure (some candidate)
      else if contains "Could not find service" loaded.stderr.toList then pure (some "")
      else pure none

/-- Only the recovery of the main share stops the worker. -/
def stopFor (target : String) (action : Action) : Py (Option String) :=
  if target = Export.srv.target ∧ action = .recover then stopWorker else pure (some "")

/-- The `finally` branch: whether the worker is running again. -/
def resumeWorker (domain : String) : Py Bool :=
  if domain = "" then pure true
  else do
    let resumed ← run (bootstrap domain) 20
    pure (resumed.returncode = 0)

def recoverWithWorker (source target : String) (action : Action) : Py Bool := do
  match ← stopFor target action with
  | none => pure false
  | some domain => do
      let outcome ← Attempt.outcome (recover source target action)
      let resumed ← resumeWorker domain
      let recovered ← Attempt.ofExcept outcome
      pure (recovered && resumed)

/-! ## The loop -/

def stampRead (readOk : Bool) (record : Record) : Py Record :=
  if readOk then do
    let now ← ask .time
    pure { record with lastReadOk := now }
  else pure record

def settle (cfg : Config) (source : String) (name : Export) (item : Item)
    (mounted : Bool) : Py Item :=
  if mounted then do
    let status ← run nfsstat 10
    let (state, reason) ← health cfg name.target name.probes status
    pure ⟨state, reason, source⟩
  else pure { item with state := .unknown, reason := "recovery_failed" }

def attempt (cfg : Config) (ip : String) (name : Export) (action : Action)
    (item : Item) (record : Record) : Py (Item × Record) := do
  let source := ip ++ ":" ++ name.remote
  ask (.announce action name item.reason)
  let now ← ask .monotonic
  let mounted ← recoverWithWorker source name.target action
  let item ← settle cfg source name item mounted
  let recoveryOk := mounted && item.state = Health.healthy
  let record ← stampRead recoveryOk { record with
    attemptAt := now, recoveries := record.recoveries + 1, recoveryOk := recoveryOk }
  pure (item, record)

def attend (cfg : Config) (source : String) (name : Export) (item : Item)
    (record : Record) : Py (Item × Record) := do
  let failures := if item.state = .hung then record.failures + 1 else 0
  let record ← stampRead (item.state = Health.healthy) { record with failures := failures }
  let now ← ask .monotonic
  match decide item.state record.failures (now - record.attemptAt) (source ≠ "")
      (record.lastReadOk ≠ 0) with
  | .none => pure (item, record)
  | action => attempt cfg source name action item record

def report (item : Item) (record : Record) : Report :=
  ⟨item, record.recoveries, record.recoveryOk, record.lastReadOk⟩

def publishCommand (cfg : Config) : Command :=
  [cfg.python, cfg.script, "--publish", statusFile]

def publish (cfg : Config) (exports : PerExport Report) : Py Unit := do
  let now ← ask .time
  let _ ← ask (.writeStatus statusFile ⟨now, exports⟩)
  let _ ← run (publishCommand cfg) 8
  ask (.sleep 30)

def sourceFor (exports : PerExport Item) : Py String :=
  if allHealthy exports then pure "" else pickSource

def react (cfg : Config) (history : PerExport Record) (exports : PerExport Item) :
    Py (PerExport Record) := do
  let source ← sourceFor exports
  let srv ← attend cfg source .srv exports.srv history.srv
  let generated ← attend cfg source .generated exports.generated history.generated
  publish cfg ⟨report srv.1 srv.2, report generated.1 generated.2⟩
  pure ⟨srv.2, generated.2⟩

/-- The body of the loop in `supervise`. -/
def supervise (cfg : Config) (history : PerExport Record) : Py (PerExport Record) := do
  let exports ← inspect cfg
  react cfg history exports

def initialHistory : PerExport Record := ⟨.initial, .initial⟩

end Homelab.NfsMount
