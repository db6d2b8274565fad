import Homelab.GithubRunner.Host

/-! # The heartbeat

A pass of the loop ends in a heartbeat, unless something on the way raises. Most of what
can be raised is not caught, and what the tick catches it catches after the heartbeat.
-/

namespace Homelab.GithubRunner

open Effects Python

/-! ## Answers that raise nothing -/

def DockerCall.reads (call : DockerCall) (completed : Completed) : Bool :=
  match call with
  | .imageInspect _ => (provenance completed).isOk
  | .inspectExitCode _ => (exitCodeOf completed).isOk
  | _ => true

def Response.totalCount (response : Response) : Except Raised Int := do
  let total ← response.get "total_count" (.int 0)
  total.toInt

def GithubCall.reads (call : GithubCall) (response : Response) : Bool :=
  match call with
  | .listRunners _ _ => response.statusCode ≠ 200 ||
      match response.runners with
      | .ok runners => runners.all fun runner => (keyOf runner).isOk
      | .error _ => false
  | .queuedRuns _ _ => response.statusCode ≠ 200 || response.totalCount.isOk
  | .generateJit _ _ _ _ => (response.statusCode ≠ 200 && response.statusCode ≠ 201) ||
      (response.get "encoded_jit_config" .none).isOk
  | _ => true

def Response.readsRate (response : Response) : Bool :=
  match response.rateRemaining with
  | none => true
  | some text => (intOfText text).isOk

/-- Docker could be started and GitHub answered, with nothing that raises. -/
def Expected : (operation : Operation) → Answer operation → Prop
  | .docker call, .ok completed => call.reads completed = true
  | .docker _, .error _ => False
  | .github call, .ok response => response.readsRate = true ∧ call.reads response = true
  | .github _, .error _ => False
  | _, _ => True

def Writable : (operation : Operation) → Answer operation → Prop
  | .makeStatusDir, made => made = true
  | .writeTemp _, written => written = true
  | .replaceStatus, replaced => replaced = true
  | .writeHeartbeat _, written => written = true
  | _, _ => True

/-! ## Heartbeats -/

/-- The heartbeat and the status hold the time that was read in these moments. -/
def Fresh (moments : List (Moment interface World)) (world : World) : Prop :=
  ∃ now, (∃ before after, ⟨before, .time, now, after⟩ ∈ moments) ∧
    world.heartbeat = some (trunc now) ∧
    ∃ status, world.status = some status ∧ status.supervisorHeartbeatTs = trunc now

/-- The loop has not ended, and each pass wrote a fresh heartbeat and status. -/
structure Alive {cfg : Config} {world : World} (run : SupervisorRun cfg world) : Prop where
  goesOn : ∀ raised, run.outcome ≠ some (.error raised)
  beats : ∀ pass ∈ run.passes, Fresh pass.moments pass.after

section

abbrev calm : System interface World := system.restrict fun moment =>
  Expected moment.operation moment.answer ∧ Writable moment.operation moment.answer

/-- The program raises nothing, and its result satisfies `post`. -/
def Sure {α : Type} (post : α → Prop) (program : Py α) : Prop :=
  ∀ past world, Attempt.Guarded calm (fun _ _ => True) (fun _ _ result => post result)
    (fun _ _ _ => False) program past world

variable {cfg : Config} {α β : Type} {post : α → Prop} {next : β → Prop}

theorem Sure.bind {first : Py α} {rest : α → Py β} (sure : Sure post first)
    (later : ∀ result, post result → Sure next (rest result)) :
    Sure next (first >>= rest) :=
  fun past world => Attempt.bind (sure past world)
    fun past world result holds => later result holds past world

theorem Sure.pure {result : α} (holds : post result) : Sure post (Pure.pure result) :=
  fun _ _ => holds

theorem Sure.mono {better : α → Prop} {program : Py α} (sure : Sure post program)
    (each : ∀ result, post result → better result) : Sure better program :=
  fun past world => Attempt.result_mono (sure past world)
    fun _ _ result holds => each result holds

theorem ask_sure (operation : Operation) : Sure
    (fun answer => Expected operation answer ∧ Writable operation answer)
    (ask operation) := by
  intro past world
  apply Attempt.lift_iff.mpr
  exact fun answer after step => ⟨trivial, step.2⟩

theorem builtin_sure {value : Except Raised α} (read : value.isOk = true) :
    Sure (fun result => value = .ok result) (builtin value) := by
  cases value with
  | error raised => cases read
  | ok result =>
      rw [builtin]
      exact Sure.pure rfl

theorem docker_sure (call : DockerCall) :
    Sure (fun completed => call.reads completed = true) (docker call) := by
  apply (ask_sure (.docker call)).bind
  intro answer expected
  cases answer with
  | ok completed => exact .pure expected.1
  | error raised => exact expected.1.elim

theorem request_sure (call : GithubCall) :
    Sure (fun response => call.reads response = true) (request call) := by
  apply (ask_sure (.github call)).bind
  intro answer expected
  cases answer with
  | error raised => exact expected.1.elim
  | ok response =>
      have recorded : Sure (fun _ => True) (recordRate response) := by
        have rate := expected.1.1
        unfold Response.readsRate at rate
        unfold recordRate
        cases header : response.rateRemaining with
        | none => exact .pure trivial
        | some text =>
            rw [header] at rate
            apply (builtin_sure rate).bind
            exact fun remaining _ =>
              (ask_sure (.count (.rateRemaining remaining))).mono fun _ _ => trivial
      exact recorded.bind fun _ _ => .pure expected.1.2

theorem smokeFrom_sure (repos : List String) (ok : Bool) :
    Sure (fun _ => True) (smokeFrom cfg repos ok) := by
  induction repos generalizing ok with
  | nil => exact .pure trivial
  | cons repo rest induction =>
      apply (request_sure (.repository cfg.owner repo)).bind
      intro r _
      split
      · exact (ask_sure (.count .authFailure)).bind fun _ _ => induction false
      · exact induction _

theorem inspectRunnerImage_sure : Sure (fun _ => True) (inspectRunnerImage cfg) := by
  apply (ask_sure .load).bind
  intro memory _
  split
  · exact .pure trivial
  · apply (docker_sure (.imageInspect cfg.runnerImage)).bind
    intro res read
    have built : (provenance res).isOk = true := read
    apply (builtin_sure built).bind
    intro labels _
    rcases labels with _ | ⟨epoch, version⟩
    · exact .pure trivial
    · exact (ask_sure (.setProvenance epoch version)).mono fun _ _ => trivial

theorem inspectRows_sure (listed : List Row) :
    Sure (fun _ => True) (inspectRows listed) := by
  induction listed with
  | nil => exact .pure trivial
  | cons row rest induction =>
      apply (docker_sure (.inspectExitCode row.id)).bind
      intro inspected read
      have ended : (exitCodeOf inspected).isOk = true := read
      apply (builtin_sure ended).bind
      intro exitCode _
      exact induction.bind fun _ _ => .pure trivial

theorem reapEach_sure (exited : List Exited) : Sure (fun _ => True) (reapEach exited) := by
  induction exited with
  | nil => exact .pure trivial
  | cons container rest induction =>
      apply (ask_sure (.count (.jobDone container.exitCode))).bind
      intro _ _
      exact (docker_sure (.remove container.row.id)).bind fun _ _ => induction

theorem reapExitedContainers_sure : Sure (fun _ => True) reapExitedContainers := by
  have exited : Sure (fun _ => True) exitedJobContainers :=
    (docker_sure .listExited).bind fun _ _ => inspectRows_sure _
  apply exited.bind
  exact fun orphans _ => (reapEach_sure orphans).bind fun _ _ => .pure trivial

/-- The loop over the value goes through runners with an id each. -/
def Runners (value : Value) : Prop :=
  ∃ items, value.iterate = .ok items ∧ ∀ runner ∈ items, (keyOf runner).isOk = true

theorem runners_nil : Runners (.list []) := ⟨[], rfl, by simp⟩

theorem listRunners_sure (repo : String) : Sure Runners (listRunners cfg repo) := by
  apply (request_sure (.listRunners cfg.owner repo)).bind
  intro r read
  split
  · exact (ask_sure (.count .authFailure)).bind fun _ _ => .pure runners_nil
  · split
    · exact .pure runners_nil
    · next worked =>
        simp only [GithubCall.reads, worked, Response.runners] at read
        cases got : r.get "runners" (.list []) with
        | error raised => simp [got, bind, Except.bind] at read
        | ok value =>
            rw [got] at read
            apply (builtin_sure rfl).mono
            intro result same
            cases same
            simp only [bind, Except.bind] at read
            split at read
            · next items iterated =>
                exact ⟨items, iterated, List.all_eq_true.mp read⟩
            · cases read

theorem keyOf_inv {runner : Value} (read : (keyOf runner).isOk = true) :
    ∃ id, runner.subscript "id" = .ok id ∧ id.key.isOk = true := by
  unfold keyOf at read
  cases found : runner.subscript "id" with
  | error raised => simp [found, bind, Except.bind, Except.isOk, Except.toBool] at read
  | ok id =>
      rw [found] at read
      exact ⟨id, rfl, read⟩

theorem startGrace_sure {id : Value} (now : ℚ) (keyed : id.key.isOk = true) :
    Sure (fun _ => True) (startGrace id now) := by
  apply (builtin_sure keyed).bind
  intro key _
  cases key with
  | none => exact .pure trivial
  | some key =>
      apply (ask_sure .load).bind
      intro memory _
      split
      · exact .pure trivial
      · exact (ask_sure (.setGrace key now)).bind fun _ _ => .pure trivial

theorem endGrace_sure {id : Value} (keyed : id.key.isOk = true) :
    Sure (fun _ => True) (endGrace id) := by
  apply (ask_sure .load).bind
  intro memory _
  split
  · exact .pure trivial
  · apply (builtin_sure keyed).bind
    intro key _
    cases key with
    | none => exact .pure trivial
    | some key => exact (ask_sure (.popGrace key)).mono fun _ _ => trivial

theorem reapRunner_sure (repo : String) (now : ℚ) {runner : Value}
    (read : (keyOf runner).isOk = true) :
    Sure (fun _ => True) (reapRunner cfg repo now runner) := by
  rcases keyOf_inv read with ⟨id, found, keyed⟩
  unfold reapRunner
  rw [found]
  apply (builtin_sure rfl).bind
  intro same equal
  cases equal
  split
  · apply (startGrace_sure now keyed).bind
    intro first _
    split
    · have deleted : Sure (fun _ => True) (deleteRunner cfg repo id) :=
        (request_sure (.deleteRunner cfg.owner repo id)).bind fun _ _ => .pure trivial
      exact deleted.bind fun _ _ => endGrace_sure keyed
    · exact .pure trivial
  · exact endGrace_sure keyed

theorem reapRunners_sure (repo : String) (now : ℚ) {runners : List Value}
    (read : ∀ runner ∈ runners, (keyOf runner).isOk = true) :
    Sure (fun _ => True) (reapRunners cfg repo now runners) := by
  induction runners with
  | nil => exact .pure trivial
  | cons runner rest induction =>
      have ⟨first, others⟩ := List.forall_mem_cons.mp read
      exact (reapRunner_sure repo now first).bind fun _ _ => induction others

theorem reapOfflineRunners_sure (repo : String) {runners : Value}
    (read : Runners runners) :
    Sure (fun _ => True) (reapOfflineRunners cfg repo runners) := by
  rcases read with ⟨items, iterated, each⟩
  apply (ask_sure .time).bind
  intro now _
  rw [iterated]
  apply (builtin_sure rfl).bind
  intro same equal
  cases equal
  exact (reapRunners_sure repo now each).bind fun _ _ => .pure trivial

theorem queuedJobs_sure (repo : String) : Sure (fun _ => True) (queuedJobs cfg repo) := by
  apply (request_sure (.queuedRuns cfg.owner repo)).bind
  intro r read
  split
  · exact .pure trivial
  · next worked =>
      simp only [GithubCall.reads, worked, Response.totalCount] at read
      cases got : r.get "total_count" (.int 0) with
      | error raised => simp [got, bind, Except.bind, Except.isOk, Except.toBool] at read
      | ok total =>
          rw [got] at read
          apply (builtin_sure rfl).bind
          intro same equal
          cases equal
          exact (builtin_sure read).mono fun _ _ => trivial

theorem survey_sure (live : List Row) (repos : List String)
    (perRepo : Table String RepoStatus) :
    Sure (fun _ => True) (survey cfg live repos perRepo) := by
  induction repos generalizing perRepo with
  | nil => exact .pure trivial
  | cons repo rest induction =>
      apply (listRunners_sure repo).bind
      intro runners read
      apply (reapOfflineRunners_sure repo read).bind
      intro items _
      exact (queuedJobs_sure repo).bind fun queued _ => induction _

theorem generateJitConfig_sure (repo : String) :
    Sure (fun _ => True) (generateJitConfig cfg repo) := by
  apply (ask_sure .uuid).bind
  intro hex _
  refine (request_sure (.generateJit cfg.owner repo _ _)).bind ?_
  intro r read
  split
  · exact (ask_sure (.count .authFailure)).bind fun _ _ => .pure trivial
  · split
    · exact (ask_sure (.count (.jitFailure r.statusCode))).bind fun _ _ => .pure trivial
    · next made =>
        have readable : (r.get "encoded_jit_config" .none).isOk = true := by
          simp only [GithubCall.reads, Bool.or_eq_true, Bool.and_eq_true,
            decide_eq_true_eq] at read
          exact read.resolve_left made
        apply (ask_sure .time).bind
        intro now _
        apply (ask_sure (.count (.jitSuccess (trunc now)))).bind
        exact fun _ _ => (builtin_sure readable).mono fun _ _ => trivial

theorem spawnRunner_sure (repo : String) (jit : Value) :
    Sure (fun _ => True) (spawnRunner cfg repo jit) := by
  apply (ask_sure .uuid).bind
  intro hex _
  apply (ask_sure .sockGid).bind
  intro sockGid _
  exact (docker_sure (.run _ _ _ _ _)).bind fun _ _ => .pure trivial

theorem maybeSpawn_sure (perRepo : Table String RepoStatus) (liveTotal : Nat) :
    Sure (fun _ => True) (maybeSpawn cfg perRepo liveTotal) := by
  unfold maybeSpawn
  split
  · exact .pure trivial
  · split
    · exact .pure trivial
    · apply (generateJitConfig_sure _).bind
      intro jit _
      split
      · exact (spawnRunner_sure _ jit).bind fun _ _ => .pure trivial
      · exact .pure trivial

/-! ## The heartbeat itself -/

theorem orOSError_bind {written : Bool} (worked : written = true) (rest : Unit → Py α) :
    (orOSError written >>= rest) = rest () := by
  rw [orOSError, if_pos worked, pure_bind]

/-- The program raises nothing, and what it published is fresh. -/
abbrev Beats {α : Type} (program : Py α) (past : Past interface World) (world : World) :
    Prop :=
  Attempt.Guarded calm (fun _ _ => True) (fun past world _ => Fresh past world)
    (fun _ _ _ => False) program past world

/-- What is published holds the time that was read for it. -/
theorem writeStatus_fresh (perRepo : Table String RepoStatus) (liveTotal orphans : Nat)
    (past : Past interface World) (world : World) :
    Beats (writeStatus perRepo liveTotal orphans) past world := by
  apply ask_bind.mpr
  intro made world₁ step₁
  refine ⟨trivial, ?_⟩
  rw [orOSError_bind step₁.2.2]
  apply ask_bind.mpr
  intro now world₂ step₂
  refine ⟨trivial, ask_bind.mpr ?_⟩
  intro memory world₃ step₃
  refine ⟨trivial, ask_bind.mpr ?_⟩
  intro written world₄ step₄
  refine ⟨trivial, ?_⟩
  rw [orOSError_bind step₄.2.2]
  apply ask_bind.mpr
  intro replaced world₅ step₅
  refine ⟨trivial, ?_⟩
  rw [orOSError_bind step₅.2.2]
  apply ask_bind.mpr
  intro beaten world₆ step₆
  have moved : replaced = true := step₅.2.2
  have stamped : beaten = true := step₆.2.2
  rw [orOSError, if_pos stamped]
  refine ⟨trivial, ?_⟩
  have temp := (HostStep.filing step₄.1).1 step₄.2.2
  have status := (HostStep.filing step₅.1).1
  have beat := HostStep.filing step₆.1
  rw [if_pos moved, temp] at status
  refine ⟨now, ⟨world₁, world₂, by simp⟩, beat.1 stamped,
    statusOf memory (trunc now) perRepo liveTotal orphans, ?_, rfl⟩
  exact beat.2.trans status

theorem Fresh.slept {moments : List (Moment interface World)} {world after : World}
    (fresh : Fresh moments world) {seconds : Int} {slept : Unit}
    (step : system.Step world (.sleep seconds) slept after) :
    Fresh (⟨world, .sleep seconds, slept, after⟩ :: moments) after := by
  rcases fresh with ⟨now, ⟨before, later, member⟩, beat, status, published, stamped⟩
  have ⟨_, sameStatus, sameBeat⟩ := HostStep.filing step
  exact ⟨now, ⟨before, later, List.mem_cons_of_mem _ member⟩, sameBeat.trans beat, status,
    sameStatus.trans published, stamped⟩

/-- The poll interval is one that `time.sleep` takes. -/
def Config.Paced (cfg : Config) : Prop :=
  0 ≤ cfg.pollInterval ∧ cfg.pollInterval ≤ sleepLimit

theorem Beats.sleep (paced : cfg.Paced) {past : Past interface World} {world : World}
    (fresh : Fresh past world) (phase : Phase) :
    Beats (do sleep cfg.pollInterval; pure phase) past world := by
  rw [GithubRunner.sleep, if_neg (not_lt.mpr paced.1), if_neg (not_lt.mpr paced.2)]
  apply ask_bind.mpr
  exact fun slept after step => ⟨trivial, fresh.slept step.1⟩

theorem Beats.catching {caught : Exception → Bool} {body : Py Unit}
    {past : Past interface World} {world : World} (beats : Beats body past world) :
    Beats (catching caught body) past world := by
  apply Attempt.bind (Attempt.outcome_iff.mpr beats)
  intro past world outcome ends
  cases outcome with
  | ok result => exact ends
  | error raised => exact ends.elim

theorem tick_beats (past : Past interface World) (world : World) :
    Beats (tick cfg) past world := by
  apply Attempt.bind (inspectRunnerImage_sure past world)
  intro past₁ world₁ _ _
  apply Attempt.bind (reapExitedContainers_sure past₁ world₁)
  intro past₂ world₂ orphans _
  have running : Sure (fun _ => True) runningJobContainers :=
    (docker_sure .listRunning).bind fun _ _ => .pure trivial
  apply Attempt.bind (running past₂ world₂)
  intro past₃ world₃ live _
  apply Attempt.bind (survey_sure live cfg.repos [] past₃ world₃)
  intro past₄ world₄ perRepo _
  apply Attempt.bind (maybeSpawn_sure perRepo live.length past₄ world₄)
  intro past₅ world₅ _ _
  exact writeStatus_fresh perRepo live.length orphans past₅ world₅

theorem run_beats (paced : cfg.Paced) (phase : Phase) (past : Past interface World)
    (world : World) : Beats (run cfg phase) past world := by
  have once (past : Past interface World) (world : World) :
      Beats (tickOnce cfg) past world :=
    Attempt.bind (tick_beats past world).catching
      fun past world _ fresh => Beats.sleep paced fresh .ticking
  cases phase with
  | ticking => exact once past world
  | smoke =>
      apply Attempt.bind (smokeFrom_sure cfg.repos true past world)
      intro past₁ world₁ passed _
      split
      · exact once past₁ world₁
      · exact Attempt.bind (writeStatus_fresh [] 0 0 past₁ world₁).catching
          fun past world _ fresh => Beats.sleep paced fresh .smoke

end

/-- The loop goes on and every pass writes a fresh heartbeat and status, in every run in
which the answers raise nothing. -/
theorem heartbeat_fresh {cfg : Config} {world : World} (run : SupervisorRun cfg world)
    (writable : ∀ moment ∈ run.trace, Writable moment.operation moment.answer)
    (paced : cfg.Paced)
    (expected : ∀ moment ∈ run.trace, Expected moment.operation moment.answer) :
    Alive run := by
  let calmRun : LoopRun calm (GithubRunner.run cfg) .smoke world :=
    run.restrict fun moment member => ⟨expected moment member, writable moment member⟩
  constructor
  · intro raised ended
    have current := calmRun.current
    change Executes calm (GithubRunner.run cfg run.state).run run.world run.moments
      run.final run.outcome at current
    rw [ended] at current
    exact (run_beats paced run.state [] run.world).result current
  · intro pass member
    have fresh := (run_beats paced pass.start [] pass.before).result
      (calmRun.completed.valid_of_mem pass member)
    rcases fresh with ⟨now, ⟨before, after, found⟩, published⟩
    exact ⟨now, ⟨before, after, by simpa using found⟩, published⟩

/-! ## Pilots -/

/-- Docker does nothing, and GitHub answers so. -/
def answering (github : GithubCall → Except Exception Response) : Script where
  docker _ := exits 0 ""
  github := github

def quiet : Script := answering fun _ => responds 200 []

def quietPass : SupervisorRun pilotConfig pilotWorld := (follow .begin quiet).complete

theorem reply_writable (script : Script) (past : Past interface World) (world : World)
    (operation : Operation) :
    Writable operation (host script past world operation).1 := by
  cases operation <;> trivial

theorem silent_reads (call : DockerCall) : call.reads ⟨0, "", ""⟩ = true := by
  have labels : (provenance ⟨0, "", ""⟩).isOk = true := by decide +kernel
  have code : (exitCodeOf ⟨0, "", ""⟩).isOk = true := by decide +kernel
  cases call with
  | imageInspect image => exact labels
  | inspectExitCode id => exact code
  | _ => rfl

theorem quiet_expected (past : Past interface World) (world : World)
    (operation : Operation) : Expected operation (host quiet past world operation).1 := by
  cases operation with
  | docker call => exact silent_reads call
  | github call => cases call <;> exact ⟨rfl, rfl⟩
  | _ => trivial

theorem heartbeat_fresh_quiet : Alive quietPass := by
  have trace : quietPass.trace = (follow .begin quiet).trace := LoopRun.complete_trace _
  apply heartbeat_fresh
  · rw [trace]
    exact follow_each (by simp [LoopRun.begin])
      fun past world operation => reply_writable quiet past world operation
  · exact ⟨by decide, by decide⟩
  · rw [trace]
    exact follow_each (by simp [LoopRun.begin])
      fun past world operation => quiet_expected past world operation

/-- Nobody answers. -/
def unreachable : SupervisorRun pilotConfig pilotWorld :=
  follow .begin (answering fun _ => .error .httpError)

/-- The smoke test is answered, and nothing after it. -/
def cutOff : SupervisorRun pilotConfig pilotWorld :=
  (follow .begin (answering fun
    | .repository _ _ => responds 200 []
    | _ => .error .httpError)).complete

theorem unreachable_ends : unreachable.outcome = some (.error .httpError) := by
  decide +kernel

theorem cutOff_silent : ∃ pass ∈ cutOff.passes, pass.after.heartbeat = none := by
  decide +kernel

/-- An outage of GitHub ends the supervisor if it has just been started, and takes its
heartbeat later on. -/
theorem heartbeat_lost :
    (∃ run : SupervisorRun pilotConfig pilotWorld,
      (∀ moment ∈ run.trace, Writable moment.operation moment.answer) ∧
        run.outcome = some (.error .httpError)) ∧
      ∃ run : SupervisorRun pilotConfig pilotWorld,
        (∀ moment ∈ run.trace, Writable moment.operation moment.answer) ∧
          ∃ pass ∈ run.passes, ¬Fresh pass.moments pass.after := by
  constructor
  · refine ⟨unreachable, ?_, unreachable_ends⟩
    exact follow_each (by simp [LoopRun.begin])
      fun past world operation => reply_writable _ past world operation
  · rcases cutOff_silent with ⟨pass, member, silent⟩
    refine ⟨cutOff, ?_, pass, member, ?_⟩
    · rw [cutOff, LoopRun.complete_trace]
      exact follow_each (by simp [LoopRun.begin])
        fun past world operation => reply_writable _ past world operation
    · rintro ⟨now, _, beat, _⟩
      cases silent.symm.trans beat

end Homelab.GithubRunner
