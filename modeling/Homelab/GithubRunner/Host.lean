import Homelab.Effects.Within
import Homelab.GithubRunner.Supervisor
import Mathlib.Data.Finset.Insert
import Mathlib.Data.Finset.Lattice.Basic

/-! # The host of the supervisor

Docker, GitHub and the clock answer as they like. What is fixed is the memory of the
process, that only `docker run` starts a job container, and what a file operation
that worked leaves behind.
-/

namespace Homelab.GithubRunner

open Effects Python

/-- The names of the live job containers, the ids of those that docker no longer has,
and the files of the status directory. -/
structure World where
  memory : Memory
  live : Finset String
  removed : Finset String
  temp : Option Status
  status : Option Status
  heartbeat : Option Int

def Memory.after (memory : Memory) : Operation → Memory
  | .count tally => { memory with counters := memory.counters.add tally }
  | .setProvenance epoch version =>
      { memory with imageBuildEpoch := epoch, runnerVersion := version }
  | .setGrace key now =>
      { memory with offlineSince := memory.offlineSince.put key now }
  | .popGrace key => { memory with offlineSince := memory.offlineSince.pop key }
  | _ => memory

def Recalling (world : World) : (operation : Operation) → Answer operation → Prop
  | .load, memory => memory = world.memory
  | _, _ => True

/-- The container an operation may start, whatever it answers. -/
def started : Operation → Finset String
  | .docker (.run name _ _ _ _) => {name}
  | _ => ∅

/-- The container an operation has certainly removed. -/
def removedBy : (operation : Operation) → Answer operation → Finset String
  | .docker (.remove id), .ok completed => if completed.returncode = 0 then {id} else ∅
  | _, _ => ∅

/-- Whether a file operation that failed changed the temporary file is left open. -/
def Filing (world : World) : (operation : Operation) → Answer operation → World → Prop
  | .writeTemp status, written, after =>
      (written = true → after.temp = some status) ∧ after.status = world.status ∧
        after.heartbeat = world.heartbeat
  | .replaceStatus, replaced, after =>
      after.status = (if replaced then world.temp else world.status) ∧
        after.heartbeat = world.heartbeat
  | .writeHeartbeat now, written, after =>
      (written = true → after.heartbeat = some now) ∧ after.status = world.status
  | _, _, after => after.temp = world.temp ∧ after.status = world.status ∧
      after.heartbeat = world.heartbeat

structure HostStep (world : World) (operation : Operation) (answer : Answer operation)
    (after : World) : Prop where
  remembering : after.memory = world.memory.after operation
  recalling : Recalling world operation answer
  living : after.live ⊆ world.live ∪ started operation
  removing : world.removed ∪ removedBy operation answer ⊆ after.removed
  filing : Filing world operation answer after

def system : System interface World := ⟨HostStep⟩

abbrev SupervisorRun (cfg : Config) (world : World) :=
  LoopRun system (run cfg) .smoke world

/-! ## What is read of a listing -/

/-- The key of the runner, if it has an id that can be a key. -/
def keyOf (runner : Value) : Except Raised (Option Key) := do
  let id ← runner.subscript "id"
  id.key

/-- What `list_runners` returns for a 200, as the loop over it sees it. -/
def Response.runners (response : Response) : Except Raised (List Value) := do
  let runners ← response.get "runners" (.list [])
  runners.iterate

/-! ## A host that follows a script -/

structure Script where
  docker : DockerCall → Except Exception Completed
  github : GithubCall → Except Exception Response

/-- The clock counts the operations here. -/
def World.reply (world : World) (script : Script) (now : Nat) :
    (operation : Operation) → Answer operation
  | .load => world.memory
  | .docker call => script.docker call
  | .github call => script.github call
  | .time => (now : ℚ)
  | .uuid => "0"
  | .sockGid => none
  | .makeStatusDir => true
  | .writeTemp _ => true
  | .replaceStatus => true
  | .writeHeartbeat _ => true
  | .count _ => ()
  | .setProvenance _ _ => ()
  | .setGrace _ _ => ()
  | .popGrace _ => ()
  | .sleep _ => ()

def World.settle (world : World) (operation : Operation) (answer : Answer operation) :
    World where
  memory := world.memory.after operation
  live := world.live ∪ started operation
  removed := world.removed ∪ removedBy operation answer
  temp := match operation with
    | .writeTemp status => some status
    | _ => world.temp
  status := match operation with
    | .replaceStatus => world.temp
    | _ => world.status
  heartbeat := match operation with
    | .writeHeartbeat now => some now
    | _ => world.heartbeat

def host (script : Script) : Oracle interface World := fun past world operation =>
  let answer := world.reply script past.length operation
  (answer, world.settle operation answer)

theorem host_permitted (script : Script) : Permitted system (host script) := by
  intro past world operation
  cases operation with
  | writeTemp status =>
      exact ⟨rfl, trivial, subset_rfl, subset_rfl, fun _ => rfl, rfl, rfl⟩
  | replaceStatus => exact ⟨rfl, trivial, subset_rfl, subset_rfl, rfl, rfl⟩
  | writeHeartbeat now => exact ⟨rfl, trivial, subset_rfl, subset_rfl, fun _ => rfl, rfl⟩
  | load => exact ⟨rfl, rfl, subset_rfl, subset_rfl, rfl, rfl, rfl⟩
  | _ => exact ⟨rfl, trivial, subset_rfl, subset_rfl, rfl, rfl, rfl⟩

def follow {cfg : Config} {world : World} (run : SupervisorRun cfg world)
    (script : Script) : SupervisorRun cfg world :=
  run.resume (host_permitted script) 100

/-- What every reply of the script satisfies, everything that happened does, if the
earlier passes do. -/
theorem follow_each {cfg : Config} {world : World} {run : SupervisorRun cfg world}
    {script : Script} {keep : Moment interface World → Prop}
    (passed : ∀ moment ∈ Pass.momentsOf run.passes, keep moment)
    (each : ∀ past world operation, keep ⟨world, operation,
      (host script past world operation).1, (host script past world operation).2⟩) :
    ∀ moment ∈ (follow run script).trace, keep moment :=
  LoopRun.resume_each (host_permitted script) 100 passed each

/-- Nothing was counted, nothing runs and nothing was published. -/
def pilotWorld : World := ⟨.initial, ∅, ∅, none, none, none⟩

def pilotConfig : Config where
  owner := "o"
  repos := ["a"]
  runnerImage := "i"
  labels := "l"
  maxConcurrentGlobal := 1
  idlePerRepo := 1
  pollInterval := 60
  orphanReapSeconds := 5

def exits (returncode : Int) (stdout : String) : Except Exception Completed :=
  .ok ⟨returncode, stdout, ""⟩

def responds (statusCode : Int) (fields : List (String × Value)) :
    Except Exception Response :=
  .ok ⟨statusCode, none, .json (.dict fields)⟩

/-! ## What the parts of the program ask for -/

/-- The operations that change what one of the tables and sets is about. -/
inductive Kind
  | plain
  | starts
  | registers
  | accounts
deriving DecidableEq, Repr

def Operation.kind : Operation → Kind
  | .docker (.run _ _ _ _ _) => .starts
  | .docker .listExited => .accounts
  | .docker (.inspectExitCode _) => .accounts
  | .docker (.remove _) => .accounts
  | .count (.jobDone _) => .accounts
  | .github (.listRunners _ _) => .registers
  | .github (.deleteRunner _ _ _) => .registers
  | .setGrace _ _ => .registers
  | .popGrace _ => .registers
  | _ => .plain

def Of (kinds : List Kind) (operation : Operation) : Prop := operation.kind ∈ kinds

instance (kinds : List Kind) (operation : Operation) : Decidable (Of kinds operation) :=
  inferInstanceAs (Decidable (_ ∈ _))

section Rules

variable {α β : Type} {rules : System interface World}
  {good : Past interface World → Moment interface World → Prop}
  {failed : Past interface World → World → Exception → Prop}
  {past : Past interface World} {world : World}

theorem ask_bind {operation : Operation} {next : Answer operation → Py β}
    {post : Past interface World → World → β → Prop} :
    Attempt.Guarded rules good post failed (ask operation >>= next) past world ↔
      ∀ answer after, rules.Step world operation answer after →
        good past ⟨world, operation, answer, after⟩ ∧
          Attempt.Guarded rules good post failed (next answer)
            (⟨world, operation, answer, after⟩ :: past) after :=
  Attempt.call_bind

theorem docker_iff {call : DockerCall}
    {post : Past interface World → World → Completed → Prop} :
    Attempt.Guarded rules good post failed (docker call) past world ↔
      ∀ answer after, rules.Step world (.docker call) answer after →
        good past ⟨world, .docker call, answer, after⟩ ∧
          Attempt.Ends post failed (⟨world, .docker call, answer, after⟩ :: past) after
            answer := by
  rw [docker, ask_bind]
  refine forall_congr' fun answer => forall_congr' fun after => imp_congr_right fun _ => ?_
  cases answer <;> exact Iff.rfl

theorem builtin_iff {value : Except Raised α}
    {post : Past interface World → World → α → Prop} :
    Attempt.Guarded rules good post failed (builtin value) past world ↔
      Attempt.Ends post failed past world (value.mapError .builtin) := by
  rw [builtin]
  exact Attempt.ofExcept_iff

theorem Of.mono {kinds more : List Kind} {operation : Operation}
    (one : Of kinds operation) (subset : kinds ⊆ more) : Of more operation :=
  subset one

theorem Of.wider {kinds more : List Kind} {attempt : Py α}
    (within : attempt.Within (Of kinds)) (subset : kinds ⊆ more) :
    attempt.Within (Of more) :=
  within.mono fun _ one => one.mono subset

end Rules

section Parts

variable {cfg : Config} {α : Type} {kinds : List Kind}

theorem ask_within (operation : Operation) (permitted : operation.kind ∈ kinds) :
    (ask operation).Within (Of kinds) := by
  apply Attempt.Steady.within
  apply Attempt.steady_lift
  exact ⟨permitted, fun _ => trivial⟩

theorem builtin_within (value : Except Raised α) : (builtin value).Within (Of kinds) := by
  unfold builtin
  cases value <;> trivial

theorem docker_within (call : DockerCall) (permitted : (Operation.docker call).kind ∈ kinds) :
    (docker call).Within (Of kinds) := by
  apply (ask_within (.docker call) permitted).bind
  intro answer
  cases answer <;> trivial

theorem recordRate_within (plain : .plain ∈ kinds) (response : Response) :
    (recordRate response).Within (Of kinds) := by
  unfold recordRate
  split
  · exact Attempt.within_pure _
  · apply (builtin_within _).bind
    exact fun remaining => ask_within (.count (.rateRemaining remaining)) plain

theorem request_within (call : GithubCall) (plain : .plain ∈ kinds)
    (permitted : (Operation.github call).kind ∈ kinds) :
    (request call).Within (Of kinds) := by
  apply (ask_within (.github call) permitted).bind
  intro answer
  cases answer with
  | error raised => exact Attempt.within_throw raised
  | ok response =>
      exact (recordRate_within plain response).bind fun _ => Attempt.within_pure _

theorem smokeFrom_within (repos : List String) (ok : Bool) :
    (smokeFrom cfg repos ok).Within (Of [.plain]) := by
  induction repos generalizing ok with
  | nil => exact Attempt.within_pure _
  | cons repo rest induction =>
      apply (request_within (.repository cfg.owner repo) (by decide)
        (by simp [Operation.kind])).bind
      intro r
      split
      · exact (ask_within (.count .authFailure) (by decide)).bind fun _ => induction false
      · exact induction _

theorem inspectRunnerImage_within : (inspectRunnerImage cfg).Within (Of [.plain]) := by
  apply (ask_within .load (by decide)).bind
  intro memory
  split
  · exact Attempt.within_pure _
  · apply (docker_within (.imageInspect cfg.runnerImage) (by simp [Operation.kind])).bind
    intro res
    apply (builtin_within _).bind
    intro labels
    rcases labels with _ | ⟨epoch, version⟩
    · exact Attempt.within_pure _
    · exact ask_within (.setProvenance epoch version) (by simp [Operation.kind])

theorem inspectRows_within (listed : List Row) :
    (inspectRows listed).Within (Of [.plain, .accounts]) := by
  induction listed with
  | nil => exact Attempt.within_pure _
  | cons row rest induction =>
      apply (docker_within (.inspectExitCode row.id) (by simp [Operation.kind])).bind
      intro inspected
      apply (builtin_within _).bind
      intro exitCode
      exact induction.bind fun others => Attempt.within_pure _

theorem reapEach_within (exited : List Exited) :
    (reapEach exited).Within (Of [.plain, .accounts]) := by
  induction exited with
  | nil => exact Attempt.within_pure _
  | cons container rest induction =>
      apply (ask_within (.count (.jobDone container.exitCode)) (by simp [Operation.kind])).bind
      intro counted
      apply (docker_within (.remove container.row.id) (by simp [Operation.kind])).bind
      exact fun _ => induction

theorem reapExitedContainers_within :
    reapExitedContainers.Within (Of [.plain, .accounts]) := by
  have exited : exitedJobContainers.Within (Of [.plain, .accounts]) :=
    (docker_within .listExited (by decide)).bind fun out => inspectRows_within _
  apply exited.bind
  intro orphans
  exact (reapEach_within orphans).bind fun _ => Attempt.within_pure _

theorem listRunners_within (repo : String) :
    (listRunners cfg repo).Within (Of [.plain, .registers]) := by
  apply (request_within (.listRunners cfg.owner repo) (by decide) (by simp [Operation.kind])).bind
  intro r
  split
  · exact (ask_within (.count .authFailure) (by decide)).bind fun _ => Attempt.within_pure _
  · split
    · exact Attempt.within_pure _
    · exact builtin_within _

theorem startGrace_within (id : Value) (now : ℚ) :
    (startGrace id now).Within (Of [.plain, .registers]) := by
  apply (builtin_within _).bind
  intro key
  cases key with
  | none => exact Attempt.within_pure _
  | some key =>
      apply (ask_within .load (by decide)).bind
      intro memory
      split
      · exact Attempt.within_pure _
      · exact (ask_within (.setGrace key now) (by simp [Operation.kind])).bind
          fun _ => Attempt.within_pure _

theorem endGrace_within (id : Value) :
    (endGrace id).Within (Of [.plain, .registers]) := by
  apply (ask_within .load (by decide)).bind
  intro memory
  split
  · exact Attempt.within_pure _
  · apply (builtin_within _).bind
    intro key
    cases key with
    | none => exact Attempt.within_pure _
    | some key => exact ask_within _ (by simp [Operation.kind])

theorem reapRunners_within (repo : String) (now : ℚ) (runners : List Value) :
    (reapRunners cfg repo now runners).Within (Of [.plain, .registers]) := by
  induction runners with
  | nil => exact Attempt.within_pure _
  | cons runner rest induction =>
      refine Attempt.Within.bind ?_ fun _ => induction
      apply (builtin_within _).bind
      intro id
      split
      · apply (startGrace_within id now).bind
        intro first
        split
        · apply Attempt.Within.bind
          · exact (request_within (.deleteRunner cfg.owner repo id) (by decide)
              (by simp [Operation.kind])).bind fun _ => Attempt.within_pure _
          · exact fun _ => endGrace_within id
        · exact Attempt.within_pure _
      · exact endGrace_within id

theorem queuedJobs_within (repo : String) : (queuedJobs cfg repo).Within (Of [.plain]) := by
  apply (request_within (.queuedRuns cfg.owner repo) (by decide) (by simp [Operation.kind])).bind
  intro r
  split
  · exact Attempt.within_pure _
  · exact (builtin_within _).bind fun _ => builtin_within _

theorem survey_within (live : List Row) (repos : List String)
    (perRepo : Table String RepoStatus) :
    (survey cfg live repos perRepo).Within (Of [.plain, .registers]) := by
  induction repos generalizing perRepo with
  | nil => exact Attempt.within_pure _
  | cons repo rest induction =>
      apply (listRunners_within repo).bind
      intro runners
      apply Attempt.Within.bind
      · apply (ask_within .time (by decide)).bind
        intro now
        apply (builtin_within _).bind
        intro items
        exact (reapRunners_within repo now items).bind fun _ => Attempt.within_pure _
      · intro items
        apply (Of.wider (queuedJobs_within repo) (by decide)).bind
        exact fun queued => induction _

theorem generateJitConfig_within (repo : String) :
    (generateJitConfig cfg repo).Within (Of [.plain]) := by
  apply (ask_within .uuid (by decide)).bind
  intro hex
  refine (request_within (.generateJit cfg.owner repo _ _) (by decide)
    (by simp [Operation.kind])).bind ?_
  intro r
  split
  · exact (ask_within (.count .authFailure) (by decide)).bind fun _ => Attempt.within_pure _
  · split
    · exact (ask_within (.count (.jitFailure r.statusCode)) (by simp [Operation.kind])).bind
        fun _ => Attempt.within_pure _
    · apply (ask_within .time (by decide)).bind
      intro now
      exact (ask_within (.count (.jitSuccess (trunc now))) (by simp [Operation.kind])).bind
        fun _ => builtin_within _

theorem spawnRunner_within (repo : String) (jit : Value) :
    (spawnRunner cfg repo jit).Within (Of [.plain, .starts]) := by
  apply (ask_within .uuid (by decide)).bind
  intro hex
  apply (ask_within .sockGid (by decide)).bind
  intro sockGid
  exact (docker_within (.run _ _ _ _ _) (by simp [Operation.kind])).bind
    fun _ => Attempt.within_pure _

theorem maybeSpawn_within (perRepo : Table String RepoStatus) (liveTotal : Nat) :
    (maybeSpawn cfg perRepo liveTotal).Within (Of [.plain, .starts]) := by
  unfold maybeSpawn
  split
  · exact Attempt.within_pure _
  · split
    · exact Attempt.within_pure _
    · apply (Of.wider (generateJitConfig_within _) (by decide)).bind
      intro jit
      split
      · exact (spawnRunner_within _ jit).bind fun _ => Attempt.within_pure _
      · exact Attempt.within_pure _

theorem orOSError_within (written : Bool) : (orOSError written).Within (Of kinds) := by
  cases written <;> trivial

theorem writeStatus_within (perRepo : Table String RepoStatus) (liveTotal orphans : Nat) :
    (writeStatus perRepo liveTotal orphans).Within (Of [.plain]) := by
  apply (ask_within .makeStatusDir (by decide)).bind
  intro made
  apply (orOSError_within made).bind
  intro _
  apply (ask_within .time (by decide)).bind
  intro now
  apply (ask_within .load (by decide)).bind
  intro memory
  apply (ask_within (.writeTemp _) (by simp [Operation.kind])).bind
  intro written
  apply (orOSError_within written).bind
  intro _
  apply (ask_within .replaceStatus (by decide)).bind
  intro replaced
  apply (orOSError_within replaced).bind
  intro _
  apply (ask_within (.writeHeartbeat _) (by simp [Operation.kind])).bind
  exact fun beaten => orOSError_within beaten

theorem sleep_within (seconds : Int) : (sleep seconds).Within (Of [.plain]) := by
  unfold sleep
  split
  · exact Attempt.within_throw _
  · split
    · exact Attempt.within_throw _
    · exact ask_within _ (by simp [Operation.kind])

end Parts

/-! ## From one tick to the loop -/

section Loop

variable {cfg : Config} {rules : System interface World}
  {good : Past interface World → Moment interface World → Prop}
  {inv : Past interface World → World → Prop} {past : Past interface World}
  {world : World}

/-- The program keeps `inv`, unless it ends in an exception that the tick lets
through. -/
def Preserves (rules : System interface World)
    (good : Past interface World → Moment interface World → Prop)
    (inv : Past interface World → World → Prop) {α : Type} (program : Py α) : Prop :=
  ∀ past world, inv past world →
    Attempt.Guarded rules good (fun past world _ => inv past world)
      (fun past world raised => raised.caughtByTick = true → inv past world) program
      past world

theorem Preserves.of_always {α : Type} {program : Py α}
    (always : ∀ past world, inv past world →
      Attempt.Guarded rules good (fun past world _ => inv past world)
        (fun past world _ => inv past world) program past world) :
    Preserves rules good inv program :=
  fun past world holds => Attempt.mono (always past world holds)
    (fun _ _ _ kept => kept) fun _ _ _ kept _ => kept

theorem Preserves.bind {α β : Type} {first : Py α} {next : α → Py β}
    (before : Preserves rules good inv first)
    (later : ∀ result, Preserves rules good inv (next result)) :
    Preserves rules good inv (first >>= next) :=
  fun past world holds => Attempt.bind (before past world holds)
    fun past world result holds => later result past world holds

theorem Preserves.pure {α : Type} (result : α) :
    Preserves rules good inv (Pure.pure result : Py α) :=
  fun _ _ holds => holds

theorem Preserves.catching {caught : Exception → Bool} {body : Py Unit}
    (preserves : Preserves rules good inv body)
    (known : ∀ raised, caught raised = true → raised.caughtByTick = true) :
    Preserves rules good inv (catching caught body) := by
  intro past world holds
  apply Attempt.bind (Attempt.outcome_iff.mpr (Guarded.post_mono
    (preserves past world holds) ?_))
  · intro past world outcome holds
    cases outcome with
    | ok result => exact holds
    | error raised =>
        dsimp only
        split
        · next matched => exact holds (known raised matched)
        · exact holds
  · intro past world outcome ends
    cases outcome <;> exact ends

/-- What plain operations and a tick keep, the loop keeps. -/
theorem run_preserves (keeps : Keeps rules (Of [.plain]) good inv)
    (ticks : Preserves rules good inv (tick cfg)) (phase : Phase) :
    Preserves rules good inv (run cfg phase) := by
  have plain {α : Type} {program : Py α} (within : program.Within (Of [.plain])) :
      Preserves rules good inv program :=
    .of_always fun _ _ holds => within.guarded keeps holds
  have rest (next : Phase) :
      Preserves rules good inv (do sleep cfg.pollInterval; pure next) :=
    (plain (sleep_within _)).bind fun _ => .pure next
  have once : Preserves rules good inv (tickOnce cfg) :=
    (ticks.catching fun _ matched => matched).bind fun _ => rest .ticking
  cases phase with
  | ticking => exact once
  | smoke =>
      apply (plain (smokeFrom_within _ _)).bind
      intro passed
      split
      · exact once
      · refine ((plain (writeStatus_within _ _ _)).catching ?_).bind fun _ => rest .smoke
        intro raised matched
        rw [of_decide_eq_true matched]
        rfl

end Loop

end Homelab.GithubRunner
