import Homelab.Effects.Loop
import Homelab.Foundation.Python
import Mathlib.Data.List.Sort

/-! # The supervisor of the GitHub runners

The program `supervisor.py`: its docker and GitHub calls, its clock and its files are
operations, and so is every access to the memory of the process, which a raised
exception leaves as it is. Log lines are left out.
-/

namespace Homelab.GithubRunner

open Effects Text Python

structure Config where
  owner : String
  repos : List String
  runnerImage : String
  labels : String
  maxConcurrentGlobal : Int
  idlePerRepo : Int
  pollInterval : Int
  orphanReapSeconds : Int

structure Counters where
  jobsTotal : Nat
  jobsFailedTotal : Nat
  lastJobExitCode : Int
  githubApiAuthFailuresTotal : Nat
  jitConfigFailures : Table Int Nat
  jitLastSuccessTs : Int
  githubApiRateRemaining : Int
deriving DecidableEq

inductive Tally
  | rateRemaining (remaining : Int)
  | authFailure
  | jitFailure (statusCode : Int)
  | jitSuccess (now : Int)
  | jobDone (exitCode : Int)
deriving DecidableEq, Repr

def Counters.add (counters : Counters) : Tally → Counters
  | .rateRemaining remaining => { counters with githubApiRateRemaining := remaining }
  | .authFailure =>
      { counters with
        githubApiAuthFailuresTotal := counters.githubApiAuthFailuresTotal + 1 }
  | .jitFailure statusCode =>
      let failures := counters.jitConfigFailures
      { counters with jitConfigFailures :=
          failures.put statusCode ((failures.lookup statusCode).getD 0 + 1) }
  | .jitSuccess now => { counters with jitLastSuccessTs := now }
  | .jobDone exitCode =>
      { counters with
        jobsTotal := counters.jobsTotal + 1
        lastJobExitCode := exitCode
        jobsFailedTotal := counters.jobsFailedTotal + if exitCode ≠ 0 then 1 else 0 }

/-- What changes in the `Supervisor`, its counters and its configuration. -/
structure Memory where
  counters : Counters
  imageBuildEpoch : Int
  runnerVersion : String
  offlineSince : Table Key ℚ
deriving DecidableEq

def Memory.initial : Memory := ⟨⟨0, 0, 0, 0, [], 0, 0⟩, 0, "unknown", []⟩

structure RepoStatus where
  registered : Nat
  online : Nat
  busy : Nat
  offline : Nat
  queuedJobs : Int
  idle : Nat
deriving DecidableEq, Repr

structure Status where
  supervisorHeartbeatTs : Int
  idleCount : Nat
  liveTotal : Nat
  orphanContainers : Nat
  counters : Counters
  imageBuildTimestamp : Int
  runnerVersion : String
  repos : Table String RepoStatus
deriving DecidableEq

/-! ## Operations -/

structure Completed where
  returncode : Int
  stdout : String
  stderr : String
deriving DecidableEq, Repr

/-- The docker commands. Both listings print `id|repo` for each container that has
`JOB_LABEL`. -/
inductive DockerCall
  | imageInspect (image : String)
  | listRunning
  | listExited
  | inspectExitCode (id : String)
  | run (name repo : String) (jit : Value) (sockGid : Option String) (image : String)
  | remove (id : String)

/-- The requests below `/repos/{owner}/{repo}`. -/
inductive GithubCall
  | repository (owner repo : String)
  | generateJit (owner repo name : String) (labels : List String)
  | listRunners (owner repo : String)
  | queuedRuns (owner repo : String)
  | deleteRunner (owner repo : String) (id : Value)

inductive Body
  | json (value : Value)
  | undecodable
  | tooDeep

/-- An HTTP response, with its `x-ratelimit-remaining` header. -/
structure Response where
  statusCode : Int
  rateRemaining : Option String
  body : Body

inductive Exception
  | httpError
  | osError
  | subprocessError
  | builtin (raised : Raised)
  | other
deriving DecidableEq, Repr

inductive Operation
  | load
  | count (tally : Tally)
  | setProvenance (epoch : Int) (version : String)
  | setGrace (key : Key) (now : ℚ)
  | popGrace (key : Key)
  | docker (call : DockerCall)
  | github (call : GithubCall)
  | time
  | uuid
  | sockGid
  | makeStatusDir
  | writeTemp (status : Status)
  | replaceStatus
  | writeHeartbeat (now : Int)
  | sleep (seconds : Int)

/-- A file operation answers `false` for an `OSError`, and so does `sockGid` with
`none`. -/
abbrev Answer : Operation → Type
  | .load => Memory
  | .docker _ => Except Exception Completed
  | .github _ => Except Exception Response
  | .time => ℚ
  | .uuid => String
  | .sockGid => Option String
  | .makeStatusDir => Bool
  | .writeTemp _ => Bool
  | .replaceStatus => Bool
  | .writeHeartbeat _ => Bool
  | _ => Unit

abbrev interface : Interface := ⟨Operation, Answer⟩

abbrev Py := Attempt interface Exception

def ask (operation : Operation) : Py (Answer operation) :=
  ExceptT.lift (.call operation .done)

@[irreducible] def builtin {α : Type} (value : Except Raised α) : Py α :=
  Attempt.ofExcept (value.mapError .builtin)

/-! ## Docker -/

def docker (call : DockerCall) : Py Completed := do
  match ← ask (.docker call) with
  | .ok completed => pure completed
  | .error raised => throw raised

structure Row where
  id : String
  repo : String
deriving DecidableEq, Repr

def rows (stdout : String) : List Row :=
  (splitlines stdout).filterMap fun line =>
    (cutAt ['|'] line).map fun parts => ⟨.ofList parts.1, .ofList parts.2⟩

def runningJobContainers : Py (List Row) := do
  let out ← docker .listRunning
  pure (rows out.stdout)

/-- `int(insp.stdout.strip() or "0") if insp.returncode == 0 else 0`. -/
def exitCodeOf (inspected : Completed) : Except Raised Int :=
  if inspected.returncode = 0 then
    let text := strip inspected.stdout
    intOfText (if text = "" then "0" else text)
  else .ok 0

structure Exited where
  row : Row
  exitCode : Int
deriving DecidableEq, Repr

/-- The loop of `exited_job_containers` over the rows that are left. -/
def inspectRows : List Row → Py (List Exited)
  | [] => pure []
  | row :: rest => do
      let inspected ← docker (.inspectExitCode row.id)
      let exitCode ← builtin (exitCodeOf inspected)
      let others ← inspectRows rest
      pure (⟨row, exitCode⟩ :: others)

def exitedJobContainers : Py (List Exited) := do
  let out ← docker .listExited
  inspectRows (rows out.stdout)

def runnerName (repo hex : String) : String := "gh-runner-" ++ repo ++ "-" ++ hex

def spawnRunner (cfg : Config) (repo : String) (jit : Value) : Py Bool := do
  let hex ← ask .uuid
  let sockGid ← ask .sockGid
  let res ← docker (.run (runnerName repo hex) repo jit sockGid cfg.runnerImage)
  pure (res.returncode = 0)

/-! ## GitHub -/

def recordRate (response : Response) : Py Unit :=
  match response.rateRemaining with
  | none => pure ()
  | some text => do
      let remaining ← builtin (intOfText text)
      ask (.count (.rateRemaining remaining))

/-- A request, and `_record_rate` on its response. -/
def request (call : GithubCall) : Py Response := do
  match ← ask (.github call) with
  | .ok response => do
      recordRate response
      pure response
  | .error raised => throw raised

def Response.json (response : Response) : Except Raised Value :=
  match response.body with
  | .json value => .ok value
  | .undecodable => .error .valueError
  | .tooDeep => .error .recursionError

def Response.get (response : Response) (name : String) (default : Value) :
    Except Raised Value := do
  let value ← response.json
  value.get name default

def Response.denied (response : Response) : Bool :=
  response.statusCode = 401 || response.statusCode = 403

/-- `smoke_test` over the repositories that are left. -/
def smokeFrom (cfg : Config) : List String → (ok : Bool) → Py Bool
  | [], ok => pure ok
  | repo :: rest, ok => do
      let r ← request (.repository cfg.owner repo)
      if r.denied then do
        ask (.count .authFailure)
        smokeFrom cfg rest false
      else smokeFrom cfg rest (ok && r.statusCode = 200)

def smokeTest (cfg : Config) : Py Bool := smokeFrom cfg cfg.repos true

def generateJitConfig (cfg : Config) (repo : String) : Py Value := do
  let hex ← ask .uuid
  let r ← request (.generateJit cfg.owner repo (runnerName repo hex) (split ',' cfg.labels))
  if r.denied then do
    ask (.count .authFailure)
    pure .none
  else if r.statusCode ≠ 200 ∧ r.statusCode ≠ 201 then do
    ask (.count (.jitFailure r.statusCode))
    pure .none
  else do
    let now ← ask .time
    ask (.count (.jitSuccess (trunc now)))
    builtin (r.get "encoded_jit_config" .none)

def listRunners (cfg : Config) (repo : String) : Py Value := do
  let r ← request (.listRunners cfg.owner repo)
  if r.denied then do
    ask (.count .authFailure)
    pure (.list [])
  else if r.statusCode ≠ 200 then pure (.list [])
  else builtin (r.get "runners" (.list []))

def queuedJobs (cfg : Config) (repo : String) : Py Int := do
  let r ← request (.queuedRuns cfg.owner repo)
  if r.statusCode ≠ 200 then pure 0
  else do
    let total ← builtin (r.get "total_count" (.int 0))
    builtin total.toInt

def deleteRunner (cfg : Config) (repo : String) (id : Value) : Py Unit := do
  let _ ← request (.deleteRunner cfg.owner repo id)
  pure ()

/-! ## The tick -/

/-- What the labels of the image say, if the image could be inspected. `isdigit` knows more
digits than `int` reads. -/
def provenance (res : Completed) : Except Raised (Option (Int × String)) :=
  match cutAt ['|'] (strip res.stdout).toList with
  | some (epoch, version) =>
      if res.returncode = 0 then do
        let built ← if epoch ≠ [] ∧ epoch.all isDigit then intOfText (.ofList epoch)
          else pure 0
        pure (some (built, if version = [] then "unknown" else .ofList version))
      else .ok none
  | none => .ok none

example : provenance ⟨0, "²|2.0\n", ""⟩ = .error .valueError := by decide +kernel

def inspectRunnerImage (cfg : Config) : Py Unit := do
  let memory ← ask .load
  if memory.imageBuildEpoch ≠ 0 ∧ memory.runnerVersion ≠ "unknown" then pure ()
  else do
    let res ← docker (.imageInspect cfg.runnerImage)
    match ← builtin (provenance res) with
    | none => pure ()
    | some (epoch, version) => ask (.setProvenance epoch version)

/-- The loop of `reap_exited_containers` over the containers that are left. -/
def reapEach : List Exited → Py Unit
  | [] => pure ()
  | container :: rest => do
      ask (.count (.jobDone container.exitCode))
      let _ ← docker (.remove container.row.id)
      reapEach rest

def reapExitedContainers : Py Nat := do
  let orphans ← exitedJobContainers
  reapEach orphans
  pure orphans.length

def hasStatus (status : String) (runner : Value) : Bool :=
  match runner.get "status" .none with
  | .ok value => value.isText status
  | .error _ => false

def isBusy (runner : Value) : Bool :=
  match runner.get "busy" .none with
  | .ok value => value.truthy
  | .error _ => false

/-- `self._offline_since.setdefault(rid, now)`. -/
def startGrace (id : Value) (now : ℚ) : Py ℚ := do
  match ← builtin id.key with
  | none => pure now
  | some key => do
      let memory ← ask .load
      match memory.offlineSince.lookup key with
      | some first => pure first
      | none => do
          ask (.setGrace key now)
          pure now

/-- `self._offline_since.pop(rid, None)`: an empty dictionary does not hash. -/
def endGrace (id : Value) : Py Unit := do
  let memory ← ask .load
  if memory.offlineSince = [] then pure ()
  else do
    match ← builtin id.key with
    | none => pure ()
    | some key => ask (.popGrace key)

/-- One runner in the loop of `reap_offline_runners`. -/
def reapRunner (cfg : Config) (repo : String) (now : ℚ) (runner : Value) : Py Unit := do
  let id ← builtin (runner.subscript "id")
  if hasStatus "offline" runner then do
    let first ← startGrace id now
    if cfg.orphanReapSeconds ≤ now - first then do
      deleteRunner cfg repo id
      endGrace id
    else pure ()
  else endGrace id

def reapRunners (cfg : Config) (repo : String) (now : ℚ) : List Value → Py Unit
  | [] => pure ()
  | runner :: rest => do
      reapRunner cfg repo now runner
      reapRunners cfg repo now rest

/-- The loop goes through `runners`, and so do the sums after it. -/
def reapOfflineRunners (cfg : Config) (repo : String) (runners : Value) :
    Py (List Value) := do
  let now ← ask .time
  let items ← builtin runners.iterate
  reapRunners cfg repo now items
  pure items

def repoStatus (live : Nat) (runners : List Value) (queued : Int) : RepoStatus :=
  let busy := runners.countP isBusy
  { registered := runners.length
    online := runners.countP (hasStatus "online")
    busy := busy
    offline := runners.countP (hasStatus "offline")
    queuedJobs := queued
    idle := live - busy }

/-- The loop of `tick` over the repositories that are left. -/
def survey (cfg : Config) (live : List Row) :
    List String → Table String RepoStatus → Py (Table String RepoStatus)
  | [], perRepo => pure perRepo
  | repo :: rest, perRepo => do
      let runners ← listRunners cfg repo
      let items ← reapOfflineRunners cfg repo runners
      let queued ← queuedJobs cfg repo
      let running := live.countP fun row => row.repo = repo
      survey cfg live rest (perRepo.put repo (repoStatus running items queued))

/-- The repositories that want another idle runner, most-demanding first. -/
def wants (cfg : Config) (perRepo : Table String RepoStatus) : List String :=
  let idle (repo : String) : Int := ((perRepo.lookup repo).map RepoStatus.idle).getD 0
  let queued (repo : String) : Int :=
    ((perRepo.lookup repo).map RepoStatus.queuedJobs).getD 0
  (cfg.repos.filter fun repo => idle repo < cfg.idlePerRepo).insertionSort
    fun repo other => queued other ≤ queued repo

def maybeSpawn (cfg : Config) (perRepo : Table String RepoStatus) (liveTotal : Nat) :
    Py Unit :=
  if cfg.maxConcurrentGlobal ≤ liveTotal then pure ()
  else
    match wants cfg perRepo with
    | [] => pure ()
    | target :: _ => do
        let jit ← generateJitConfig cfg target
        if jit.truthy then do
          let _ ← spawnRunner cfg target jit
          pure ()
        else pure ()

/-- A file operation that can raise an `OSError`. -/
def orOSError (written : Bool) : Py Unit := if written then pure () else throw .osError

def statusOf (memory : Memory) (now : Int) (perRepo : Table String RepoStatus)
    (liveTotal orphans : Nat) : Status where
  supervisorHeartbeatTs := now
  idleCount := (perRepo.map fun entry => entry.2.idle).sum
  liveTotal := liveTotal
  orphanContainers := orphans
  counters := memory.counters
  imageBuildTimestamp := memory.imageBuildEpoch
  runnerVersion := memory.runnerVersion
  repos := perRepo

def writeStatus (perRepo : Table String RepoStatus) (liveTotal orphans : Nat) :
    Py Unit := do
  orOSError (← ask .makeStatusDir)
  let now := trunc (← ask .time)
  let memory ← ask .load
  orOSError (← ask (.writeTemp (statusOf memory now perRepo liveTotal orphans)))
  orOSError (← ask .replaceStatus)
  orOSError (← ask (.writeHeartbeat now))

def tick (cfg : Config) : Py Unit := do
  inspectRunnerImage cfg
  let orphans ← reapExitedContainers
  let live ← runningJobContainers
  let perRepo ← survey cfg live cfg.repos []
  maybeSpawn cfg perRepo live.length
  writeStatus perRepo live.length orphans

/-! ## The loop -/

/-- The most seconds `time.sleep` takes. -/
def sleepLimit : Int := 9223372036

def sleep (seconds : Int) : Py Unit :=
  if seconds < 0 then throw (.builtin .valueError)
  else if sleepLimit < seconds then throw (.builtin .overflowError)
  else ask (.sleep seconds)

/-- `except (httpx.HTTPError, OSError, subprocess.SubprocessError)`. -/
def Exception.caughtByTick : Exception → Bool
  | .httpError => true
  | .osError => true
  | .subprocessError => true
  | .builtin _ => false
  | .other => false

/-- `try: body except …: pass`. -/
def catching (caught : Exception → Bool) (body : Py Unit) : Py Unit := do
  match ← Attempt.outcome body with
  | .ok result => pure result
  | .error raised => if caught raised then pure () else throw raised

/-- Where `run` is: before the PAT worked, or after. -/
inductive Phase
  | smoke
  | ticking
deriving DecidableEq, Repr

def tickOnce (cfg : Config) : Py Phase := do
  catching Exception.caughtByTick (tick cfg)
  sleep cfg.pollInterval
  pure .ticking

def retrySmoke (cfg : Config) : Py Phase := do
  catching (· = .osError) (writeStatus [] 0 0)
  sleep cfg.pollInterval
  pure .smoke

/-- `run`, from one sleep to the next. -/
def run (cfg : Config) : Phase → Py Phase
  | .smoke => do
      if ← smokeTest cfg then tickOnce cfg else retrySmoke cfg
  | .ticking => tickOnce cfg

end Homelab.GithubRunner
