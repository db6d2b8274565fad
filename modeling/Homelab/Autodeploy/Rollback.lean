import Homelab.Autodeploy.Soundness
import Homelab.Autodeploy.Welcome
import Homelab.Effects.Simulation

/-! # A rollback that is not complete

The restore loop keeps the name of the last target it could not restore, tells
the operator, and records what it records after a complete rollback. Nothing
durable says which targets are still broken, or that any is.
-/

namespace Homelab.Autodeploy

open Effects Text

/-! ## What a rollback did -/

def asksRollback (moment : Moment interface World) : Bool :=
  match moment.operation with
  | .rollbackTargets _ _ => true
  | _ => false

def deployPhase (moments : List (Moment interface World)) :
    List (Moment interface World) :=
  moments.takeWhile fun moment => !asksRollback moment

def restorePhase (moments : List (Moment interface World)) :
    List (Moment interface World) :=
  moments.dropWhile fun moment => !asksRollback moment

def gaveUp : Operation → Option String
  | .log (.attemptFailed target 3 _) => some target
  | _ => none

/-- The targets that failed to restore. -/
def unrestored (moments : List (Moment interface World)) : List String :=
  (restorePhase moments).filterMap fun moment => gaveUp moment.operation

def reported (moments : List (Moment interface World)) : List String :=
  moments.filterMap fun moment =>
    match moment.operation with
    | .log (.rollbackFailed target) => some target
    | _ => none

/-- The same deploy failed alike in the twin, and all of it was restored. -/
structure FullyRestored (cfg : Config) (repo : Repository) (run twin : CdRun) :
    Prop where
  valid : twin.Valid (system cfg repo) (fun _ => (controller cfg).run)
  completed : twin.Completed
  start : twin.before = run.before
  deploy : deployPhase twin.moments = deployPhase run.moments
  rollback : restorePhase twin.moments ≠ []
  restored : unrestored twin.moments = []

/-- The durable state or the metrics tell the run from a full restore. -/
def Visible (cfg : Config) (repo : Repository) (run : CdRun) : Prop :=
  ∀ twin, FullyRestored cfg repo run twin →
    run.after.state ≠ twin.after.state ∨ run.after.metrics ≠ twin.after.metrics

/-- The report names every target that failed to restore. -/
def Named (run : CdRun) : Prop :=
  ∀ target ∈ unrestored run.moments, target ∈ reported run.moments

/-- No later run records a success unless each of the targets was deployed with
exit status zero since. -/
def Repaired (cfg : Config) (repo : Repository) (run : CdRun) : Prop :=
  ∀ later final, CdHistory cfg repo run.after later final →
    (∃ moment ∈ Run.momentsOf later, ∃ origin now,
      durable moment = some (.onSuccess origin now)) →
    ∀ target ∈ unrestored run.moments, ∃ moment ∈ Run.momentsOf later, ∃ files,
      ansibleRun moment = some ⟨.apply, target, 0, files⟩

/-- An incomplete rollback stays visible and is repaired. -/
structure StaysVisible (cfg : Config) (repo : Repository) (run : CdRun) : Prop where
  visible : Visible cfg repo run
  named : Named run
  repaired : Repaired cfg repo run

section

variable {cfg : Config} {repo : Repository} {job : Job} {world final : World}
  {moments first second : List (Moment interface World)}

/-! ## Phases of a sequence -/

def Operation.deploying : Operation → Prop
  | .rollbackTargets _ _ => False
  | _ => True

theorem deploying_quiet {moment : Moment interface World}
    (deploying : moment.operation.deploying) : asksRollback moment = false := by
  rcases moment with ⟨before, operation, answer, after⟩
  cases operation <;> first | rfl | exact deploying.elim

theorem deployPhase_append
    (quiet : ∀ moment ∈ first, moment.operation.deploying) :
    deployPhase (first ++ second) = first ++ deployPhase second :=
  List.takeWhile_append_of_pos fun moment member => by
    simp [deploying_quiet (quiet moment member)]

theorem restorePhase_append
    (quiet : ∀ moment ∈ first, moment.operation.deploying) :
    restorePhase (first ++ second) = restorePhase second :=
  List.dropWhile_append_of_pos fun moment member => by
    simp [deploying_quiet (quiet moment member)]

theorem unrestored_append
    (quiet : ∀ moment ∈ first, moment.operation.deploying) :
    unrestored (first ++ second) = unrestored second := by
  rw [unrestored, restorePhase_append quiet, unrestored]

theorem unrestored_quiet
    (quiet : ∀ moment ∈ moments, moment.operation.deploying) :
    unrestored moments = [] := by
  have same : unrestored (moments ++ []) = unrestored [] := unrestored_append quiet
  rw [List.append_nil] at same
  exact same

theorem Operation.aside.deploying {operation : Operation} (aside : operation.aside) :
    operation.deploying := by
  cases operation <;> trivial

theorem Operation.working.deploying {operation : Operation}
    (working : operation.working) : operation.deploying := by
  cases operation <;> trivial

theorem checkout_deploying (sha : String) : (checkout sha).Steady Operation.deploying := by
  apply Attempt.Steady.bind (ask_steady trivial)
  exact fun _ => lfsPull_steady.mono fun _ aside => aside.deploying

/-! ## Twins -/

def World.record (world : World) : StateFile × Option Metrics :=
  (world.state, world.metrics)

/-- The moments of a twin, next to those of the run. -/
structure Twin (moments moments' : List (Moment interface World))
    (final final' : World) : Prop where
  deploy : deployPhase moments' = deployPhase moments
  rollback : restorePhase moments' ≠ []
  restored : unrestored moments' = []
  record : final'.record = final.record

def HasTwin {α : Type} (cfg : Config) (repo : Repository) (attempt : Sh α) (world : World)
    (moments : List (Moment interface World)) (final : World)
    (outcome : Except Nat α) : Prop :=
  ∃ moments' final', Executes (system cfg repo) attempt.run world moments' final'
    (some outcome) ∧ Twin moments moments' final final'

theorem HasTwin.bind {α β : Type} {attempt : Sh α} {rest : α → Sh β} {middle : World}
    {value : α} {outcome : Except Nat β}
    (earlier : Executes (system cfg repo) attempt.run world first middle
      (some (.ok value)))
    (quiet : ∀ moment ∈ first, moment.operation.deploying)
    (later : HasTwin cfg repo (rest value) middle second final outcome) :
    HasTwin cfg repo (attempt >>= rest) world (first ++ second) final outcome := by
  rcases later with ⟨moments', final', execution, twin⟩
  refine ⟨first ++ moments', final', Attempt.executes_bind earlier execution, ?_⟩
  rcases twin with ⟨deploy, rollback, restored, record⟩
  refine ⟨?_, ?_, ?_, record⟩
  · rw [deployPhase_append quiet, deployPhase_append quiet, deploy]
  · rw [restorePhase_append quiet]
    exact rollback
  · rw [unrestored_append quiet]
    exact restored

/-! ## A restore without failures -/

def AllPass (moment : Moment interface World) : Prop :=
  match moment.operation, moment.answer with
  | .ansible _ _, (status : Nat) => status = 0
  | _, _ => True

def Operation.unfailing (operation : Operation) : Prop := gaveUp operation = none

def Unfailing (_ : Past interface World) (moment : Moment interface World) : Prop :=
  moment.operation.unfailing

theorem notify_unfailing (message : Message) (priority tags : String) :
    (notify cfg message priority tags).Steady Operation.unfailing := by
  unfold notify
  split
  · exact Attempt.steady_pure ()
  · exact ask_steady rfl

theorem reportRollback_reporting (job : Job) (rbFail : String) :
    (reportRollback cfg job rbFail).Steady Operation.reporting := by
  unfold reportRollback
  split
  · exact Attempt.Steady.bind (notify_reporting _ _ _) fun _ => log_reporting _
  · exact Attempt.Steady.bind (notify_reporting _ _ _) fun _ => log_reporting _

theorem reportRollback_unfailing (rbFail : String) :
    (reportRollback cfg job rbFail).Steady Operation.unfailing := by
  unfold reportRollback
  split
  · exact Attempt.Steady.bind (notify_unfailing _ _ _) fun _ => ask_steady rfl
  · exact Attempt.Steady.bind (notify_unfailing _ _ _) fun _ => ask_steady rfl

theorem unfailing_keeps {keep : Moment interface World → Prop} :
    Keeps ((system cfg repo).restrict keep) Operation.unfailing Unfailing
      (fun _ _ => True) :=
  fun _ _ _ _ _ unfailing _ _ => ⟨unfailing, trivial⟩

theorem deployOnce_passes {past : Past interface World} {target : String}
    {failed : Past interface World → World → Nat → Prop} :
    Attempt.Guarded ((system cfg repo).restrict AllPass) Unfailing
      (fun _ _ rc => rc = 0) failed (deployOnce target) past world := by
  apply ask_bind.mpr
  intro syntaxStatus world₁ step₁
  refine ⟨rfl, ?_⟩
  have passed : syntaxStatus = (0 : Nat) := step₁.2
  subst passed
  apply ask_bind.mpr
  intro checkStatus world₂ step₂
  refine ⟨rfl, ?_⟩
  have passed : checkStatus = (0 : Nat) := step₂.2
  subst passed
  apply Attempt.lift_iff.mpr
  intro applyStatus world₃ step₃
  exact ⟨rfl, step₃.2⟩

theorem deployTarget_passes {past : Past interface World} {target : String}
    {failed : Past interface World → World → Nat → Prop} :
    Attempt.Guarded ((system cfg repo).restrict AllPass) Unfailing
      (fun _ _ rc => rc = 0) failed (deployTarget target) past world := by
  apply ask_bind.mpr
  intro present world₁ step₁
  refine ⟨rfl, ?_⟩
  change Bool at present
  cases present with
  | true =>
      apply Attempt.bind deployOnce_passes
      intro past₂ world₂ rc passed
      rw [if_pos passed]
      rfl
  | false =>
      apply ask_bind.mpr
      intro _ world₂ step₂
      exact ⟨rfl, rfl⟩

theorem restoreAll_passes {past : Past interface World} {targets : List String}
    {failed : Past interface World → World → Nat → Prop} :
    Attempt.Guarded ((system cfg repo).restrict AllPass) Unfailing
      (fun _ _ rbFail => rbFail = "") failed (restoreAll cfg targets "") past world := by
  induction targets generalizing past world with
  | nil => rfl
  | cons target rest induction =>
      apply Attempt.bind ((notify_unfailing _ _ _).guarded unfailing_keeps trivial)
      intro past₁ world₁ _ _
      apply Attempt.bind deployTarget_passes
      intro past₂ world₂ rc passed
      rw [if_pos passed]
      exact induction

/-- Working and reporting leave the state and the metrics alone. -/
theorem system_working {world after : World} {operation : Operation}
    {answer : Answer operation} (working : operation.working)
    (step : (system cfg repo).Step world operation answer after) :
    after.record = world.record := by
  cases operation with
  | playbook => rw [step.1]
  | ansible stage target =>
      have ⟨state, _, metrics⟩ := system_ansible step
      rw [World.record, state, metrics, World.record]
  | sleep | log | notify =>
      have same : after = world := step
      rw [same]
  | _ => exact working.elim

theorem exists_restore (cfg : Config) (repo : Repository) (world : World)
    (targets : List String) :
    ∃ moments final, Executes (system cfg repo) (restoreAll cfg targets "").run world
      moments final (some (.ok "")) ∧ final.record = world.record ∧
      ∀ moment ∈ moments, moment.operation.unfailing := by
  have passing : Permitted ((system cfg repo).restrict AllPass)
      (host cfg repo (willing "" "")) := by
    apply (host_permitted _).restrict
    intro past world operation
    cases operation with
    | ansible => exact rfl
    | _ => exact trivial
  have ⟨moments, final, result, execution⟩ := Executes.exists_completed _ passing
    (restoreAll cfg targets "").run world
  have wide := execution.widen fun _ _ _ _ step => step.1
  have guarded : Attempt.Guarded ((system cfg repo).restrict AllPass) Unfailing
      (fun _ _ rbFail => rbFail = "") (fun _ _ _ => False) (restoreAll cfg targets "")
      [] world := restoreAll_passes
  have ended := Effects.Guarded.result guarded execution
  refine ⟨moments, final, ?_, ?_, ?_⟩
  · cases result with
    | ok rbFail =>
        have none : rbFail = "" := ended
        rw [none] at wide
        exact wide
    | error status => exact ended.elim
  · apply wide.preserves World.record (restoreAll_steady targets "")
    exact fun _ _ _ _ working step => system_working working step
  · intro moment member
    rcases List.append_of_mem member with ⟨earlier, later, split⟩
    exact Effects.Guarded.moment_good guarded execution split

/-! ## A rollback has a twin -/

/-- What the script does for the record: the state file and the metrics. -/
def Operation.recording : Operation → Prop
  | .now => True
  | .textfileDir => True
  | .stateSet _ => True
  | .writeMetrics _ _ => True
  | _ => False

def Agree (world mirror : World) : Prop := mirror.record = world.record

/-- What is recorded depends on what was recorded before, and on nothing else. -/
theorem mirrors_recording : Mirrors (system cfg repo) Operation.recording Agree := by
  intro world mirror operation answer after recording agree step
  have ⟨state, metrics⟩ := Prod.mk.inj agree
  cases operation with
  | now | textfileDir =>
      have same : after = world := step
      exact ⟨mirror, rfl, same ▸ agree⟩
  | stateSet command =>
      change Bool at answer
      cases answer with
      | true =>
          rcases step with ⟨written, computed, rfl⟩
          rw [← state] at computed
          exact ⟨{ mirror with state := .document written }, ⟨written, computed, rfl⟩,
            Prod.ext rfl metrics⟩
      | false =>
          have same : after = world := step
          exact ⟨mirror, rfl, same ▸ agree⟩
  | writeMetrics now runOk =>
      change Bool at answer
      cases answer with
      | true =>
          rcases step with ⟨loaded, read, rfl⟩
          rw [← state] at read
          exact ⟨{ mirror with metrics := some (renderMetrics loaded now runOk) },
            ⟨loaded, read, rfl⟩, Prod.ext state rfl⟩
      | false =>
          have same : after = world := step
          exact ⟨mirror, rfl, same ▸ agree⟩
  | _ => exact recording.elim

theorem recordFail_recording (origin : String) :
    (recordFail origin).Steady Operation.recording := by
  apply Attempt.Steady.bind (ask_steady trivial)
  intro now
  apply Attempt.Steady.bind (ask_steady trivial)
  exact fun _ => Attempt.steady_pure _

theorem finish_recording {α : Type} (runOk : Bool) (status : Nat) :
    (finish runOk status : Sh α).Within Operation.recording := by
  have emitted : (emitMetrics runOk).Steady Operation.recording := by
    apply Attempt.Steady.bind (ask_steady trivial)
    intro present
    split
    · apply Attempt.Steady.bind (ask_steady trivial)
      intro now
      apply Attempt.Steady.bind (ask_steady trivial)
      exact fun _ => Attempt.steady_pure _
    · exact Attempt.steady_pure _
  exact emitted.within.bind fun _ => Attempt.within_throw status

theorem exists_report (cfg : Config) (repo : Repository) (job : Job) (world : World) :
    ∃ moments final, Executes (system cfg repo) (reportRollback cfg job "").run world
      moments final (some (.ok ())) ∧ final.record = world.record := by
  have permitted : Permitted ((system cfg repo).restrict fun _ => True)
      (host cfg repo (willing "" "")) := (host_permitted _).restrict fun _ _ _ => trivial
  have ⟨moments, final, result, execution⟩ := Executes.exists_completed _ permitted
    (reportRollback cfg job "").run world
  have wide := execution.widen fun _ _ _ _ step => step.1
  have ⟨_, ended⟩ := wide.ends (reportRollback_reporting job "")
  rw [ended] at wide
  refine ⟨moments, final, wide, ?_⟩
  apply wide.preserves World.record (reportRollback_reporting job "")
  exact fun _ _ _ _ reporting step => system_working reporting.working step

theorem unrestored_unfailing
    (unfailing : ∀ moment ∈ moments, moment.operation.unfailing) :
    unrestored moments = [] := by
  rw [unrestored, List.filterMap_eq_nil_iff]
  intro moment member
  exact unfailing moment ((List.dropWhile_suffix _).subset member)

theorem Operation.recording.unfailing {operation : Operation}
    (recording : operation.recording) : operation.unfailing := by
  cases operation <;> first | rfl | exact recording.elim

/-- Whatever could not be restored, the record of a rollback is that of one
which restored everything. -/
theorem rollback_twin {targets : List String} {failed : String}
    {outcome : Except Nat Unit}
    (execution : Executes (system cfg repo) (rollback cfg job targets failed).run world
      moments final (some outcome)) :
    HasTwin cfg repo (rollback cfg job targets failed) world moments final outcome := by
  rcases Attempt.executes_steady_inv (checkout_deploying job.lastGood) execution with
    ⟨_, _, world₁, _, reset, next₁, rfl⟩
  apply HasTwin.bind reset (reset.operations (checkout_deploying job.lastGood))
  rcases Attempt.executes_steady_inv (notify_steady _ _ _) next₁ with
    ⟨_, _, world₂, _, told, next₂, rfl⟩
  apply HasTwin.bind told fun moment member =>
    (told.operations (notify_steady _ _ _) moment member).deploying
  rcases Attempt.executes_perform_inv next₂ with ⟨answer, world₃, _, asked, next₃, rfl⟩
  rcases Attempt.executes_steady_inv (restoreAll_steady _ "") next₃ with
    ⟨rbFail, _, world₄, _, restored, next₄, rfl⟩
  rcases Attempt.executes_steady_inv (recordFail_recording job.origin) next₄ with
    ⟨_, _, world₅, _, recorded, next₅, rfl⟩
  rcases Attempt.executes_steady_inv (reportRollback_reporting job rbFail) next₅ with
    ⟨_, _, world₆, _, report, finished, rfl⟩
  -- the twin restores all of it, and answers the rest as the run did
  have ⟨_, twin₄, restored', kept, passed⟩ := exists_restore cfg repo world₃
    (readLines answer)
  have agree₄ : Agree world₄ twin₄ := by
    refine kept.trans (Eq.symm ?_)
    apply restored.preserves World.record (restoreAll_steady _ "")
    exact fun _ _ _ _ working step => system_working working step
  have ⟨_, twin₅, recorded', agree₅⟩ := recorded.mirror mirrors_recording
    (recordFail_recording job.origin) agree₄
  have ⟨_, twin₆, report', told'⟩ := exists_report cfg repo job twin₅
  have agree₆ : Agree world₆ twin₆ := by
    refine told'.trans (agree₅.trans (Eq.symm ?_))
    apply report.preserves World.record (reportRollback_reporting job rbFail)
    exact fun _ _ _ _ reporting step => system_working reporting.working step
  have ⟨_, final', finished', agree⟩ := finished.mirror mirrors_recording
    (finish_recording false 1) agree₆
  refine ⟨_, final', Attempt.executes_perform asked (Attempt.executes_bind restored'
    (Attempt.executes_bind recorded' (Attempt.executes_bind report' finished'))), ?_⟩
  refine ⟨rfl, nofun, unrestored_unfailing ?_, agree⟩
  intro moment member
  rcases List.mem_cons.mp member with asking | member
  · rw [asking]
    rfl
  rcases List.mem_append.mp member with restoring | member
  · exact passed moment restoring
  rcases List.mem_append.mp member with recording | member
  · exact (recorded'.operations (recordFail_recording _) moment recording).unfailing
  rcases List.mem_append.mp member with reporting | finishing
  · exact report'.operations (reportRollback_unfailing _) moment reporting
  · exact (finished'.operations (finish_recording _ _) moment finishing).unfailing

/-! ## A run without a rollback -/

theorem within_quiet {α : Type} {attempt : Sh α} {outcome : Option (Except Nat α)}
    (within : attempt.Within Operation.deploying)
    (execution : Executes (system cfg repo) attempt.run world moments final outcome) :
    unrestored moments = [] :=
  unrestored_quiet (execution.operations within)

theorem deploying_of_aside {α : Type} {attempt : Sh α}
    (within : attempt.Within Operation.aside) :
    attempt.Within Operation.deploying :=
  within.mono fun _ aside => aside.deploying

theorem adopt_deploying (job : Job) : (adopt cfg job).Steady Operation.deploying := by
  have told : (progress cfg (.checkedOut job.tag job.origin job.lastGood) "low"
      "arrow_down").Steady Operation.deploying :=
    (progress_steady _ _ _).mono fun _ aside => aside.deploying
  apply Attempt.Steady.bind
  · apply Attempt.Steady.bind (ask_steady trivial)
    exact fun _ => Attempt.steady_pure _
  intro _
  apply Attempt.Steady.bind (checkout_deploying job.origin)
  intro _
  apply Attempt.Steady.bind told
  intro _
  apply Attempt.Steady.bind (ask_steady trivial)
  intro _
  apply Attempt.Steady.bind (ask_steady trivial)
  intro _
  apply Attempt.Steady.bind (ask_steady trivial)
  exact fun _ => Attempt.steady_pure _

theorem recordSuccess_deploying (origin : String) :
    (recordSuccess origin).Steady Operation.deploying := by
  apply Attempt.Steady.bind (ask_steady trivial)
  intro now
  apply Attempt.Steady.bind (ask_steady trivial)
  exact fun _ => Attempt.steady_pure _

theorem adoptOnly_deploying (job : Job) (skipped : List String) :
    (adoptOnly cfg job skipped).Within Operation.deploying := by
  have said {attempt : Sh Unit} (steady : attempt.Steady Operation.aside) :=
    deploying_of_aside steady.within
  unfold adoptOnly
  split
  · apply Attempt.Within.bind (said (log_steady _))
    intro _
    apply Attempt.Within.bind (recordSuccess_deploying _).within
    intro _
    apply Attempt.Within.bind (said (notify_steady _ _ _))
    exact fun _ => deploying_of_aside (finish_within true 0)
  · apply Attempt.Within.bind (said (log_steady _))
    intro _
    apply Attempt.Within.bind (recordSuccess_deploying _).within
    intro _
    apply Attempt.Within.bind (said (progress_steady _ _ _))
    exact fun _ => deploying_of_aside (finish_within true 0)

theorem deploy_twin {plan : Plan} {outcome : Except Nat Unit}
    (execution : Executes (system cfg repo) (deploy cfg job plan).run world
      moments final (some outcome)) (incomplete : unrestored moments ≠ []) :
    HasTwin cfg repo (deploy cfg job plan) world moments final outcome := by
  have said {attempt : Sh Unit} (steady : attempt.Steady Operation.aside) :=
    steady.mono fun _ aside => aside.deploying
  rcases Attempt.executes_steady_inv (said (log_steady _)) execution with
    ⟨_, _, world₁, _, planned, next₁, rfl⟩
  have quiet₁ := planned.operations (said (log_steady _))
  rw [unrestored_append quiet₁] at incomplete
  apply HasTwin.bind planned quiet₁
  rcases Attempt.executes_steady_inv (said (notify_steady _ _ _)) next₁ with
    ⟨_, _, world₂, _, told, next₂, rfl⟩
  have quiet₂ := told.operations (said (notify_steady _ _ _))
  rw [unrestored_append quiet₂] at incomplete
  apply HasTwin.bind told quiet₂
  have loop : (deployAll cfg plan.targets).Steady Operation.deploying :=
    (deployAll_steady plan.targets).mono fun _ working => working.deploying
  rcases Attempt.executes_steady_inv loop next₂ with
    ⟨failed, _, world₃, _, deployed, next₃, rfl⟩
  have quiet₃ := deployed.operations loop
  rw [unrestored_append quiet₃] at incomplete
  apply HasTwin.bind deployed quiet₃
  cases failed with
  | some failed => exact rollback_twin next₃
  | none =>
      refine absurd (within_quiet ?_ next₃) incomplete
      apply Attempt.Within.bind (recordSuccess_deploying _).within
      intro _
      apply Attempt.Within.bind (said (log_steady _)).within
      intro _
      apply Attempt.Within.bind (said (notify_steady _ _ _)).within
      exact fun _ => deploying_of_aside (finish_within true 0)

theorem controller_twin {outcome : Except Nat Unit}
    (execution : Executes (system cfg repo) (controller cfg).run world
      moments final (some outcome)) (incomplete : unrestored moments ≠ []) :
    HasTwin cfg repo (controller cfg) world moments final outcome := by
  have passed := deploying_of_aside (gate_within : (gate cfg).Within _)
  rcases Attempt.executes_bind_inv execution with ⟨_, _, stopped⟩ |
    ⟨job, _, world₁, _, through, next₁, rfl⟩
  · exact absurd (within_quiet passed stopped) incomplete
  have quiet₁ := through.operations passed
  rw [unrestored_append quiet₁] at incomplete
  apply HasTwin.bind through quiet₁
  rcases Attempt.executes_steady_inv (adopt_deploying job) next₁ with
    ⟨plan, _, world₂, _, adopted, next₂, rfl⟩
  have quiet₂ := adopted.operations (adopt_deploying job)
  rw [unrestored_append quiet₂] at incomplete
  apply HasTwin.bind adopted quiet₂
  by_cases nothing : plan.targets = []
  · rw [if_pos nothing] at next₂
    exact absurd (within_quiet (adoptOnly_deploying job plan.skipped) next₂) incomplete
  · rw [if_neg nothing] at next₂ ⊢
    exact deploy_twin next₂ incomplete

/-- A rollback that leaves targets broken is on record as one that left none. -/
theorem incomplete_rollback_invisible {run : CdRun}
    (valid : run.Valid (system cfg repo) (fun _ => (controller cfg).run))
    (completed : run.Completed) (incomplete : unrestored run.moments ≠ []) :
    ¬ Visible cfg repo run := by
  have ⟨outcome, ended⟩ := Option.isSome_iff_exists.mp completed
  have execution : Executes (system cfg repo) (controller cfg).run run.before run.moments
      run.after (some outcome) := ended ▸ valid
  rcases controller_twin execution incomplete with ⟨moments', final', execution', twin⟩
  have same := Prod.mk.inj twin.record
  intro visible
  rcases visible ⟨(), run.before, moments', final', some outcome⟩
    ⟨execution', rfl, rfl, twin.deploy, twin.rollback, twin.restored⟩ with state | metrics
  · exact state same.1.symm
  · exact metrics same.2.symm

/-- Whatever an incomplete rollback is, it does not stay visible. -/
theorem incomplete_rollback_forgotten {run : CdRun}
    (valid : run.Valid (system cfg repo) (fun _ => (controller cfg).run))
    (completed : run.Completed) (incomplete : unrestored run.moments ≠ []) :
    ¬ StaysVisible cfg repo run :=
  fun stays => incomplete_rollback_invisible valid completed incomplete stays.visible

end

/-! ## Two targets that are not restored -/

/-- Two roles that the second commit changes and the third one changes back. -/
def twoRoles : Repository where
  files commit path :=
    if path = "ansible/playbooks/a.yml" ∨ path = "ansible/playbooks/b.yml" then
      some "- hosts: all"
    else if path = "ansible/roles/a/meta" ∨ path = "ansible/roles/b/meta" then
      some (if commit = "2" then "new" else "old")
    else none

def twoRolesWorld : World where
  state := .document (onSuccess ∅ "1" 0)
  metrics := none
  checkout := ⟨"1", twoRoles.files "1"⟩
  runtime := content pilotConfig.rules (twoRoles.files "1")

/-- Only `a` at the new commit can be deployed. -/
def brokenChoice (head : String) : Choice
  | .ansible .apply target =>
      if head = "2" ∧ target = "a" then (0 : Nat) else (1 : Nat)
  | operation => willing "2" "ansible/roles/a/meta\nansible/roles/b/meta\n" operation

def brokenHost : Oracle interface World := fun past world operation =>
  host pilotConfig twoRoles (brokenChoice world.checkout.head) past world operation

theorem brokenHost_permitted : Permitted (system pilotConfig twoRoles) brokenHost :=
  fun past world operation =>
    host_permitted (brokenChoice world.checkout.head) past world operation

/-- A run whose host may answer differently as the world changes. -/
def oracleRun (cfg : Config) (oracle : Oracle interface World) (world : World)
    (fuel : Nat) : CdRun :=
  let run := simulate oracle fuel (controller cfg).run [] world
  ⟨(), world, run.1, run.2.1, run.2.2⟩

theorem oracleRun_valid {cfg : Config} {repo : Repository}
    {oracle : Oracle interface World} (permitted : Permitted (system cfg repo) oracle)
    (world : World) (fuel : Nat) :
    (oracleRun cfg oracle world fuel).Valid (system cfg repo)
      (fun _ => (controller cfg).run) :=
  simulate_executes permitted _ _ _ _

def brokenRun : CdRun := oracleRun pilotConfig brokenHost twoRolesWorld 120

theorem brokenRun_valid : brokenRun.Valid (system pilotConfig twoRoles)
    (fun _ => (controller pilotConfig).run) :=
  oracleRun_valid brokenHost_permitted twoRolesWorld 120

def revertedRun : CdRun :=
  hostRun pilotConfig twoRoles (willing "3" "") brokenRun.after 40

theorem hostRun_history {cfg : Config} {repo : Repository} (choose : Choice)
    (world : World) (fuel : Nat) :
    CdHistory cfg repo world [hostRun cfg repo choose world fuel]
      (hostRun cfg repo choose world fuel).after :=
  .next .start _ rfl (hostRun_valid choose world fuel)

def recordsSuccess (moment : Moment interface World) : Bool :=
  match durable moment with
  | some (.onSuccess _ _) => true
  | _ => false

theorem brokenRun_computed :
    (brokenRun.outcome.isSome = true ∧ unrestored brokenRun.moments = ["a", "b"] ∧
      reported brokenRun.moments = ["b"]) ∧
      revertedRun.moments.any recordsSuccess = true ∧
      revertedRun.moments.all (fun moment => (ansibleRun moment).isNone) = true := by
  decide +kernel

theorem incomplete_rollback_forgotten_brokenRun :
    ¬ StaysVisible pilotConfig twoRoles brokenRun := by
  have incomplete : unrestored brokenRun.moments ≠ [] := by
    rw [brokenRun_computed.1.2.1]
    simp
  exact incomplete_rollback_forgotten brokenRun_valid brokenRun_computed.1.1 incomplete

/-- A run where no part of it holds: the record is that of a full restore, the
report leaves `a` out, and the next run records a success without touching
either target. -/
theorem incomplete_rollback_lost :
    ∃ run : CdRun, run.Valid (system pilotConfig twoRoles)
        (fun _ => (controller pilotConfig).run) ∧
      run.Completed ∧ unrestored run.moments ≠ [] ∧
      ¬ Visible pilotConfig twoRoles run ∧ ¬ Named run ∧
      ¬ Repaired pilotConfig twoRoles run := by
  have completed := brokenRun_computed.1.1
  have lost := brokenRun_computed.1.2.1
  have named := brokenRun_computed.1.2.2
  have succeeds := brokenRun_computed.2.1
  have untouched := brokenRun_computed.2.2
  have incomplete : unrestored brokenRun.moments ≠ [] := by
    rw [lost]
    simp
  refine ⟨brokenRun, brokenRun_valid, completed, incomplete,
    incomplete_rollback_invisible brokenRun_valid completed incomplete, ?_, ?_⟩
  · intro names
    have member := names "a" (by simp [lost])
    simp [named] at member
  · intro repaired
    have later : CdHistory pilotConfig twoRoles brokenRun.after [revertedRun]
        revertedRun.after := hostRun_history (willing "3" "") brokenRun.after 40
    have ⟨moment, member, recorded⟩ := List.any_eq_true.mp succeeds
    have success : ∃ origin now, durable moment = some (.onSuccess origin now) := by
      unfold recordsSuccess at recorded
      split at recorded
      · next origin now write => exact ⟨origin, now, write⟩
      · cases recorded
    rw [← Run.momentsOf_singleton revertedRun] at member untouched
    have ⟨repair, among, files, ran⟩ := repaired _ _ later ⟨moment, member, success⟩ "a"
      (by simp [lost])
    have nothing := List.all_eq_true.mp untouched repair among
    rw [ran] at nothing
    cases nothing

end Homelab.Autodeploy
