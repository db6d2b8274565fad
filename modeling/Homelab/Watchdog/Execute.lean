import Homelab.Effects.Attempt
import Homelab.Effects.History
import Homelab.Watchdog.Inventory
import Homelab.Watchdog.Policy
import Mathlib.Data.List.AList

/-! # The watchdog scan

`Execute` with every file and command it touches as an operation. Lines written
to the log are left out: nothing reads them back and their errors are ignored.
-/

namespace Homelab.Watchdog

open Effects ByteText

structure Config where
  docker : Bytes
  notifyHelper : Bytes
  stateDir : Bytes
  stateFile : Bytes
  textfile : Bytes
  log : Bytes
  threshold : Int
  maxRestarts : Int
  cooldown : Int
deriving Repr

structure Container where
  state : State
  unhealthy : Bool
  restartFailed : Bool
deriving DecidableEq, Repr

/-- What a map lookup gives for a name that is not there. -/
def Container.zero : Container := ⟨.zero, false, false⟩

abbrev Containers := AList fun _ : Name => Container

/-- The ledger, with the counters as wide as the source has them. -/
structure Result where
  lastRun : Int
  success : Bool
  dockerReadOk : Bool
  attempts : UInt64
  restarts : UInt64
  failures : UInt64
  notifications : UInt64
  notificationFailures : UInt64
  containers : Containers

def Result.empty : Result :=
  ⟨0, false, false, 0, 0, 0, 0, 0, ∅⟩

def Result.container (r : Result) (name : Name) : Container :=
  (r.containers.lookup name).getD .zero

def Result.setContainer (r : Result) (name : Name) (c : Container) : Result :=
  { r with containers := r.containers.insert name c }

@[simp] theorem Result.container_setContainer (r : Result) (name : Name)
    (c : Container) : (r.setContainer name c).container name = c := by
  simp [Result.container, Result.setContainer]

theorem Result.container_setContainer_ne {r : Result} {name other : Name}
    (different : other ≠ name) (c : Container) :
    (r.setContainer other c).container name = r.container name := by
  simp [Result.container, Result.setContainer,
    AList.lookup_insert_ne (Ne.symm different)]

/-- A map that is filled name by name. -/
theorem lookup_foldl_insert (value : Name → Container) (names : List Name)
    (containers : Containers) (name : Name) :
    (names.foldl (fun containers other => containers.insert other (value other))
      containers).lookup name =
        if name ∈ names then some (value name) else containers.lookup name := by
  induction names generalizing containers with
  | nil => simp
  | cons head rest induction =>
      rw [List.foldl_cons, induction]
      by_cases later : name ∈ rest
      · simp [later]
      · by_cases equal : name = head
        · subst equal
          simp [later]
        · simp [later, equal, AList.lookup_insert_ne equal]

/-- What reading and decoding `cfg.StateFile` gives. `malformed` is a document
that is no JSON object, does not decode into a `Result`, or has null containers. -/
inductive LedgerRead
  | notExist
  | failed (message : String)
  | malformed
  | decoded (ledger : Result)

inductive StateRead
  | notExist
  | failed (message : String)
  | data (content : Bytes)

inductive Operation
  | readLedger
  | openLog
  | psUnhealthy
  | psAll
  | readState (name : Name)
  | writeState (name : Name) (content : Bytes)
  | writeLedger (ledger : Result)
  | writeTextfile (ledger : Result) (budget : Int)
  | restart (name : Name)
  | notifyHelper (title priority tags body : Bytes)
  | globStates
  | removeState (name : Name)

/-- Files and commands answer with a result or an error text. `globStates`
answers with what stands between `watchdog-` and `.state` in each file name. -/
abbrev Answer : Operation → Type
  | .readLedger => LedgerRead
  | .psUnhealthy => Except String Bytes
  | .psAll => Except String Bytes
  | .readState _ => StateRead
  | .globStates => Except String (List Name)
  | _ => Except String Unit

abbrev interface : Interface := ⟨Operation, Answer⟩

abbrev Go := Attempt interface String

def openLog : Go Unit := .ofProgram (.call Operation.openLog .done)
def readLedger : Go LedgerRead := ExceptT.lift (.call Operation.readLedger .done)
def psUnhealthy : Go (Except String Bytes) :=
  ExceptT.lift (.call Operation.psUnhealthy .done)
def psAll : Go (Except String Bytes) := ExceptT.lift (.call Operation.psAll .done)
def readState (name : Name) : Go StateRead :=
  ExceptT.lift (.call (Operation.readState name) .done)
def writeLedger (r : Result) : Go Unit :=
  .ofProgram (.call (Operation.writeLedger r) .done)
def writeTextfile (r : Result) (budget : Int) : Go Unit :=
  .ofProgram (.call (Operation.writeTextfile r budget) .done)
def restartCommand (name : Name) : Go (Except String Unit) :=
  ExceptT.lift (.call (Operation.restart name) .done)
def notifyCommand (title priority tags body : Bytes) : Go (Except String Unit) :=
  ExceptT.lift (.call (Operation.notifyHelper title priority tags body) .done)
def globStates : Go (List Name) := .ofProgram (.call Operation.globStates .done)
def removeState (name : Name) : Go Unit :=
  .ofProgram (.call (Operation.removeState name) .done)

/-! ## Writing results -/

def saveLegacy (name : Name) (s : State) : Go Unit :=
  .ofProgram (.call (Operation.writeState name s.bytes) .done)

def publish (cfg : Config) (r : Result) : Go Unit := do
  writeLedger r
  writeTextfile r cfg.maxRestarts

/-- The `fail` closure: the error is reported only if it could be published. -/
def fail {α : Type} (cfg : Config) (r : Result) (message : String) : Go α := do
  publish cfg r
  throw message

/-- `if e != nil { return fail(e) }` around one action. -/
def orFail {α : Type} (cfg : Config) (r : Result) (action : Go α) : Go α := do
  match ← action.outcome with
  | .ok result => pure result
  | .error message => fail cfg r message

/-- The `notify` closure, with the ledger it leaves in memory. -/
def notify (cfg : Config) (r : Result) (title priority tags body : Bytes) :
    Go Result := do
  let r := { r with notifications := r.notifications + 1 }
  publish cfg r
  let r := match ← notifyCommand title priority tags body with
    | .ok _ => r
    | .error _ => { r with notificationFailures := r.notificationFailures + 1 }
  publish cfg r
  pure r

/-! ## Reading the world -/

def isAbs (path : Bytes) : Bool := path.head? = some 47

def checkConfig (cfg : Config) (now : Int) : Except String Unit :=
  if cfg.threshold < 1 ∨ cfg.maxRestarts < 1 ∨ cfg.cooldown < 1 ∨ now < 1 then
    .error "watchdog: invalid policy"
  else if ¬[cfg.docker, cfg.notifyHelper, cfg.stateDir, cfg.stateFile,
      cfg.textfile, cfg.log].all isAbs then
    .error "watchdog: absolute paths required"
  else if cfg.stateFile = cfg.textfile ∨ cfg.log = cfg.stateFile ∨
      cfg.log = cfg.textfile then
    .error "watchdog: distinct output paths required"
  else .ok ()

def acceptLedger : LedgerRead → Except String Result
  | .notExist => .ok .empty
  | .failed message => .error message
  | .malformed => .error "watchdog: malformed counter ledger"
  | .decoded r =>
      if r.lastRun < 1 then .error "watchdog: malformed counter ledger"
      else if r.containers.keys.all namePattern then .ok r
      else .error "watchdog: invalid ledger name"

structure Scan where
  all : List Name
  rows : Rows
  unhealthy : List Name
  states : List (Name × State)

/-- `bad[n]`. -/
def Scan.bad (scan : Scan) (name : Name) : Bool := decide (name ∈ scan.unhealthy)

/-- `exists[n]`. -/
def Scan.known (scan : Scan) (name : Name) : Bool :=
  (scan.states.lookup name).isSome

/-- `states[n]`. -/
def Scan.state (scan : Scan) (name : Name) : State :=
  (scan.states.lookup name).getD .zero

def Scan.plan (scan : Scan) (cfg : Config) (now : Int) (name : Name) : Plan :=
  (scan.state name).decide (scan.bad name) now cfg.threshold cfg.maxRestarts
    cfg.cooldown

/-- `observations[n]` is a running container that reports healthy. -/
def Scan.ready (scan : Scan) (name : Name) : Bool :=
  scan.rows.lookup name = some ⟨.running, .healthy⟩

def readStates : List Name → Go (List (Name × State))
  | [] => pure []
  | name :: rest => do
      match ← readState name with
      | .notExist => readStates rest
      | .failed message => throw message
      | .data content => do
          let s ← Attempt.ofExcept (parseState content)
          let states ← readStates rest
          pure ((name, s) :: states)

def namedError {α : Type} (message : String) : Except String α → Except String α
  | .ok result => .ok result
  | .error _ => .error message

def readScan : Go Scan := do
  let u ← Attempt.ofExcept
    (namedError "watchdog: unhealthy inventory unavailable" (← psUnhealthy))
  let a ← Attempt.ofExcept
    (namedError "watchdog: full inventory unavailable" (← psAll))
  let unhealthy ← Attempt.ofExcept (names u)
  let (all, rows) ← Attempt.ofExcept (inventory a)
  if consistent unhealthy all rows then do
    let states ← readStates all
    pure ⟨all, rows, unhealthy, states⟩
  else throw "watchdog: inventories changed during scan"

/-! ## Acting on what was read -/

def observe (cfg : Config) (now : Int) (scan : Scan) (r : Result) (name : Name) :
    Container :=
  ⟨(scan.plan cfg now name).state, scan.bad name,
    !scan.ready name && (r.container name).restartFailed⟩

/-- `observed`: the containers of this scan, each name set once. -/
def observed (cfg : Config) (now : Int) (scan : Scan) (r : Result) : Containers :=
  scan.all.foldl
    (fun containers name => containers.insert name (observe cfg now scan r name)) ∅

def budgetBody (cfg : Config) (s : State) : Bytes :=
  ascii "Restarted " ++ decimal s.restarts ++
    ascii " times in 24 h; unhealthy for " ++ decimal s.consecutive ++
    ascii " consecutive polls. Restart budget exhausted. Inspect health logs, network " ++
    ascii "endpoints and mounts. Repeat suppressed for " ++
    decimal (cfg.cooldown.tdiv 3600) ++ ascii " hours."

def restartedBody (cfg : Config) (planned s : State) : Bytes :=
  ascii "Unhealthy " ++ decimal planned.consecutive ++
    ascii " consecutive polls; Docker restart succeeded. Budget " ++
    decimal s.restarts ++ ascii "/" ++ decimal cfg.maxRestarts ++
    ascii " in 24 h. Readiness is checked on the next poll."

def restartFailedBody (s : State) : Bytes :=
  ascii "Unhealthy " ++ decimal s.consecutive ++
    ascii " consecutive polls; Docker restart failed or exceeded 45 s. " ++
    ascii "Inspect Docker and container state."

/-- The `restart` case: the intention is published before the command runs. -/
def tendRestart (cfg : Config) (now : Int) (planned : State) (r : Result)
    (name : Name) (c : Container) : Go Result := do
  let c := { c with restartFailed := true }
  let r := { r with attempts := r.attempts + 1 }.setContainer name c
  publish cfg r
  match ← restartCommand name with
  | .ok _ => do
      let c := { c with restartFailed := false, state := c.state.restarted now }
      let r := { r with restarts := r.restarts + 1 }.setContainer name c
      orFail cfg r (saveLegacy name c.state)
      publish cfg r
      notify cfg r (ascii "Watchdog: restarted " ++ name) (ascii "default")
        (ascii "wrench,docker") (restartedBody cfg planned c.state)
  | .error _ => do
      let r := { r with failures := r.failures + 1 }.setContainer name c
      orFail cfg r (saveLegacy name c.state)
      publish cfg r
      if cfg.cooldown ≤ now - c.state.lastAlert then do
        let c := { c with state := { c.state with lastAlert := now } }
        let r := r.setContainer name c
        orFail cfg r (saveLegacy name c.state)
        notify cfg r (ascii "Watchdog: restart failed for " ++ name)
          (ascii "urgent") (ascii "warning,docker") (restartFailedBody c.state)
      else pure r

def act (cfg : Config) (now : Int) (p : Plan) (r : Result) (name : Name)
    (c : Container) : Go Result :=
  match p.action with
  | .restart => tendRestart cfg now p.state r name c
  | .budget =>
      if p.notify then
        notify cfg r (ascii "Watchdog: " ++ name ++ ascii " stuck unhealthy")
          (ascii "urgent") (ascii "rotating_light,docker") (budgetBody cfg c.state)
      else pure r
  | _ => pure r

def tend (cfg : Config) (now : Int) (scan : Scan) (r : Result) (name : Name) :
    Go Result := do
  let c := r.container name
  if scan.known name || scan.bad name then
    orFail cfg r (saveLegacy name c.state)
  act cfg now (scan.plan cfg now name) r name c

def tendAll (cfg : Config) (now : Int) (scan : Scan) :
    Result → List Name → Go Result
  | r, [] => pure r
  | r, name :: rest => do
      let r ← tend cfg now scan r name
      tendAll cfg now scan r rest

def collect (cfg : Config) (scan : Scan) (r : Result) : List Name → Go Unit
  | [] => pure ()
  | name :: rest => do
      if namePattern name && !decide (name ∈ scan.all) then
        orFail cfg r (removeState name)
      collect cfg scan r rest

def actOn (cfg : Config) (now : Int) (scan : Scan) (r : Result) : Go Unit := do
  let r := { r with dockerReadOk := true, containers := observed cfg now scan r }
  publish cfg r
  let r ← tendAll cfg now scan r scan.all
  let files ← orFail cfg r globStates
  collect cfg scan r files
  publish cfg { r with success := true }

def execute (cfg : Config) (now : Int) : Go Unit := do
  Attempt.ofExcept (checkConfig cfg now)
  let r ← Attempt.ofExcept (acceptLedger (← readLedger))
  let r := { r with lastRun := now, success := false, dockerReadOk := false }
  openLog
  let scan ← orFail cfg r readScan
  actOn cfg now scan r

/-! ## The durable world -/

inductive LedgerFile
  | absent
  | corrupt
  | document (ledger : Result)

def LedgerFile.read : LedgerFile → LedgerRead
  | .absent => .notExist
  | .corrupt => .malformed
  | .document r => .decoded r

/-- What survives a kill: the ledger and the state file of each name. The paths
are those of one installation, the same in every run. -/
structure World where
  ledger : LedgerFile
  legacy : Name → Option Bytes

def World.fresh : World := ⟨.absent, fun _ => none⟩

/-- Reads may fail. A write either replaces the whole file or changes nothing.
Commands answer as they like, and `filepath.Glob` leaves out, without an error, what it cannot
read of the directory. -/
def system : System interface World where
  Step world operation answer after :=
    match operation, answer with
    | .readLedger, (answer : LedgerRead) =>
        after = world ∧
          (answer = world.ledger.read ∨ ∃ message, answer = .failed message)
    | .readState name, (answer : StateRead) =>
        after = world ∧
          ((∃ message, answer = .failed message) ∨
            match world.legacy name with
            | none => answer = .notExist
            | some content => answer = .data content)
    | .writeLedger r, (answer : Except String Unit) =>
        match answer with
        | .ok _ => after = { world with ledger := .document r }
        | .error _ => after = world
    | .writeState name content, (answer : Except String Unit) =>
        match answer with
        | .ok _ => after =
            { world with legacy := Function.update world.legacy name (some content) }
        | .error _ => after = world
    | .removeState name, (answer : Except String Unit) =>
        match answer with
        | .ok _ => after =
            { world with legacy := Function.update world.legacy name none }
        | .error _ => after = world
    | .globStates, (answer : Except String (List Name)) =>
        after = world ∧
          match answer with
          | .ok files => ∀ name ∈ files, (world.legacy name).isSome = true
          | .error _ => True
    | _, _ => after = world

/-- A run of `Execute` with its configuration and its clock. -/
abbrev ScanRun := Run interface World (Config × Int) (Except String Unit)

abbrev Scans (initial : World) (runs : List ScanRun) (final : World) : Prop :=
  History system (fun scan => (execute scan.1 scan.2).run) initial runs final

/-- A host that reports these two inventories and on which every file and
command works. Of the state files it lists those of `names`. -/
def steadyHost (names : List Name) (unhealthy full : Bytes) : Oracle interface World :=
  fun _ world operation =>
    match operation with
    | .readLedger => (world.ledger.read, world)
    | .openLog => (.ok (), world)
    | .psUnhealthy => (.ok unhealthy, world)
    | .psAll => (.ok full, world)
    | .readState name =>
        (match world.legacy name with
          | none => .notExist
          | some content => .data content, world)
    | .writeState name content =>
        (.ok (), { world with
          legacy := Function.update world.legacy name (some content) })
    | .writeLedger r => (.ok (), { world with ledger := .document r })
    | .writeTextfile _ _ => (.ok (), world)
    | .restart _ => (.ok (), world)
    | .notifyHelper _ _ _ _ => (.ok (), world)
    | .globStates => (.ok (names.filter fun name => (world.legacy name).isSome), world)
    | .removeState name =>
        (.ok (), { world with legacy := Function.update world.legacy name none })

theorem steadyHost_permitted (names : List Name) (unhealthy full : Bytes) :
    Permitted system (steadyHost names unhealthy full) := by
  intro past world operation
  cases operation with
  | readLedger => exact ⟨rfl, .inl rfl⟩
  | readState name =>
      refine ⟨rfl, .inr ?_⟩
      simp only [steadyHost]
      cases world.legacy name <;> rfl
  | globStates => exact ⟨rfl, fun name member => (List.mem_filter.mp member).2⟩
  | _ => rfl

def samplePolicy : Config :=
  ⟨ascii "/docker", ascii "/notify", ascii "/state", ascii "/ledger",
    ascii "/metrics", ascii "/log", 1, 1, 1⟩

def hostScan (host : Oracle interface World) (cfg : Config) (now : Int) (before : World) :
    ScanRun :=
  let scan := simulate host 40 (execute cfg now).run [] before
  ⟨(cfg, now), before, scan.1, scan.2.1, scan.2.2⟩

theorem hostScan_valid {host : Oracle interface World} (permitted : Permitted system host)
    (cfg : Config) (now : Int) (before : World) :
    (hostScan host cfg now before).Valid system fun scan => (execute scan.1 scan.2).run :=
  simulate_executes permitted _ _ _ _

def steadyScan (cfg : Config) (now : Int) (before : World) : ScanRun :=
  hostScan (steadyHost [ascii "web"] (ascii "web\n") (ascii "web|running|unhealthy\n"))
    cfg now before

@[simp] theorem steadyScan_parameter (cfg : Config) (now : Int) (before : World) :
    (steadyScan cfg now before).parameter = (cfg, now) := rfl

theorem steadyScan_valid (cfg : Config) (now : Int) (before : World) :
    (steadyScan cfg now before).Valid system fun scan => (execute scan.1 scan.2).run :=
  hostScan_valid (steadyHost_permitted _ _ _) cfg now before

/-- The first scan ever. -/
def firstScan : ScanRun := steadyScan samplePolicy 1000 .fresh

theorem firstScan_scans : Scans .fresh [firstScan] firstScan.after :=
  .next .start firstScan rfl (steadyScan_valid _ _ _)

end Homelab.Watchdog
