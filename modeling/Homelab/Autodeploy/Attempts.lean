import Homelab.Autodeploy.Crash
import Mathlib.Data.List.Chain

/-! # Attempts and the recorded baseline

What a run writes down is its attempt, its plan and its outcome, in this order,
and it can end after any of them. The state file is determined by that and by
the state the run found.
-/

namespace Homelab.Autodeploy

open Effects Text

/-! ## What a run writes down -/

inductive Entry
  | wrote (command : StateCommand)
  | planned (targets : List String)
deriving DecidableEq

/-- The new state that became durable, or the plan. -/
def entry (moment : Moment interface World) : Option Entry :=
  match moment.operation, moment.answer with
  | .stateSet command, (true : Bool) => some (.wrote command)
  | .plan _, (text : String) => some (.planned (readLines text))
  | _, _ => none

def Entry.attempt : Entry → Option String
  | .wrote (.onAttempt sha) => some sha
  | _ => none

/-- The outcome that an entry records: what `failed_sha` is to be. -/
def Entry.outcome : Entry → Option String
  | .wrote (.onSuccess _ _) => some ""
  | .wrote (.onFail sha _) => some sha
  | _ => none

def Entry.baseline : Entry → Option String
  | .wrote (.onSuccess sha _) => some sha
  | _ => none

def entriesOf (runs : List CdRun) : List Entry :=
  (Run.momentsOf runs).filterMap entry

def attempts (runs : List CdRun) : List String :=
  (entriesOf runs).filterMap Entry.attempt

def outcomes (runs : List CdRun) : List String :=
  (entriesOf runs).filterMap Entry.outcome

/-- `deploy_target` returned success: the playbook was applied, or there is none. -/
def Deployed (target : String) (moment : Moment interface World) : Prop :=
  match moment.operation, moment.answer with
  | .ansible .apply name, (status : Nat) => name = target ∧ status = 0
  | .playbook name, (present : Bool) => name = target ∧ present = false
  | _, _ => False

/-- Every state write that is reached succeeds. -/
def Writes (moment : Moment interface World) : Prop :=
  match moment.operation, moment.answer with
  | .stateSet _, (written : Bool) => written = true
  | _, _ => True

/-- `failed_sha` in the state file. -/
def World.failedSha (world : World) : Value :=
  match world.state.load with
  | some state => Dict.get state "failed_sha" (.str "")
  | none => .null

/-! ## The law -/

/-- A run records an outcome only for the commit it attempted, and a success
only when every target of its plan was deployed. -/
structure EndsWell (early : List (Moment interface World))
    (moment : Moment interface World) : Prop where
  attempted : ∀ found sha, entry moment = some found →
    found.outcome = some sha ∨ found.baseline = some sha → sha ≠ "" →
    ∃ earlier ∈ early, entry earlier = some (.wrote (.onAttempt sha))
  planned : ∀ found sha, entry moment = some found → found.baseline = some sha →
    ∃ earlier ∈ early, ∃ targets, entry earlier = some (.planned targets)
  deployed : ∀ found sha, entry moment = some found → found.baseline = some sha →
    ∀ earlier ∈ early, ∀ targets, entry earlier = some (.planned targets) →
      ∀ target ∈ targets, ∃ deploy ∈ early, Deployed target deploy
  unmoved : (∀ found, entry moment = some found → found.baseline = none) →
    moment.after.state.lastGood = moment.before.state.lastGood
  moved : ∀ found sha, entry moment = some found → found.baseline = some sha →
    moment.after.state.lastGood = sha

/-- The law of attempts and of the recorded baseline. -/
structure AttemptLaw (runs : List CdRun) (final : World) : Prop where
  unrepeated : ∀ sha before between after,
    attempts runs = before ++ sha :: (between ++ sha :: after) →
      ∃ other ∈ between, other ≠ sha
  ends : ∀ run ∈ runs, ∀ early moment late, run.moments = early ++ moment :: late →
    EndsWell early moment
  failed : final.failedSha = .str ((outcomes runs).getLastD "")
  nonempty : ∀ sha now, .wrote (.onFail sha now) ∈ entriesOf runs → sha ≠ ""

section

variable {cfg : Config} {repo : Repository} {found state : Dict} {origin : String}
  {targets : List String} {entries : List Entry}
  {past : Past interface World} {world after : World}

/-! ## Where a run is -/

/-- Exactly this was written down so far, and this is the state. -/
structure Written (entries : List Entry) (state : Dict) (past : Past interface World)
    (world : World) : Prop where
  entries : past.filterMap entry = entries
  state : world.state.load = some state

/-- The commit needs a deploy by the state the run found. -/
structure Due (found : Dict) (origin : String) : Prop where
  resolved : substitute origin = origin
  needed : needsDeploy found origin = true

def AllDeployed (targets : List String) (past : Past interface World) : Prop :=
  ∀ target ∈ targets, ∃ moment ∈ past, Deployed target moment

inductive Course (found : Dict) (past : Past interface World) (world : World) : Prop
  | idle (written : Written [] found past world)
  | attempted (origin : String) (due : Due found origin)
      (written : Written [.wrote (.onAttempt origin)] (onAttempt found origin) past world)
  | planned (origin : String) (targets : List String) (due : Due found origin)
      (written : Written [.planned targets, .wrote (.onAttempt origin)]
        (onAttempt found origin) past world)
  | succeeded (origin : String) (targets : List String) (now : Int)
      (due : Due found origin) (deployed : AllDeployed targets past)
      (written : Written [.wrote (.onSuccess origin now), .planned targets,
        .wrote (.onAttempt origin)] (onSuccess (onAttempt found origin) origin now) past
        world)
  | failed (origin : String) (targets : List String) (now : Int) (state : Dict)
      (due : Due found origin)
      (recorded : onFail (onAttempt found origin) origin now = some state)
      (written : Written [.wrote (.onFail origin now), .planned targets,
        .wrote (.onAttempt origin)] state past world)

def Operation.unwritten : Operation → Prop
  | .stateSet _ => False
  | .plan _ => False
  | _ => True

theorem Operation.unwritten.stateless {operation : Operation}
    (unwritten : operation.unwritten) : operation.stateless := by
  cases operation <;> trivial

theorem Operation.aside.unwritten {operation : Operation} (aside : operation.aside) :
    operation.unwritten := by
  cases operation <;> trivial

theorem Operation.working.unwritten {operation : Operation}
    (working : operation.working) : operation.unwritten := by
  cases operation <;> trivial

theorem unwritten_of_aside {α : Type} {attempt : Sh α}
    (steady : attempt.Steady Operation.aside) : attempt.Steady Operation.unwritten :=
  steady.mono fun _ aside => aside.unwritten

theorem finish_unwritten {α : Type} (runOk : Bool) (status : Nat) :
    (finish runOk status : Sh α).Within Operation.unwritten :=
  (finish_within runOk status).mono fun _ aside => aside.unwritten

theorem checkout_unwritten (sha : String) :
    (checkout sha).Steady Operation.unwritten := by
  apply Attempt.Steady.bind (ask_steady trivial)
  exact fun _ => unwritten_of_aside lfsPull_steady

theorem entry_unwritten {operation : Operation} (unwritten : operation.unwritten)
    (answer : Answer operation) : entry ⟨world, operation, answer, after⟩ = none := by
  cases operation <;> first | rfl | exact unwritten.elim

/-- Nothing but an entry moves the run on. -/
theorem Written.unwritten {operation : Operation} {answer : Answer operation}
    (written : Written entries state past world) (unwritten : operation.unwritten)
    (step : (system cfg repo).Step world operation answer after) :
    Written entries state (⟨world, operation, answer, after⟩ :: past) after := by
  constructor
  · rw [List.filterMap_cons_none (entry_unwritten unwritten answer)]
    exact written.entries
  · rw [system_stateless unwritten.stateless step]
    exact written.state

theorem allDeployed_nil : AllDeployed [] past := by
  intro target member
  cases member

theorem AllDeployed.cons {moment : Moment interface World}
    (deployed : AllDeployed targets past) : AllDeployed targets (moment :: past) :=
  fun target member => exists_later (deployed target member)

theorem Course.unwritten {operation : Operation} {answer : Answer operation}
    (course : Course found past world) (unwritten : operation.unwritten)
    (step : (system cfg repo).Step world operation answer after) :
    Course found (⟨world, operation, answer, after⟩ :: past) after := by
  cases course with
  | idle written => exact .idle (written.unwritten unwritten step)
  | attempted origin due written =>
      exact .attempted origin due (written.unwritten unwritten step)
  | planned origin targets due written =>
      exact .planned origin targets due (written.unwritten unwritten step)
  | succeeded origin targets now due deployed written =>
      exact .succeeded origin targets now due deployed.cons
        (written.unwritten unwritten step)
  | failed origin targets now state due recorded written =>
      exact .failed origin targets now state due recorded
        (written.unwritten unwritten step)

abbrev Runs {α : Type} (cfg : Config) (repo : Repository) (found : Dict)
    (post : Past interface World → World → α → Prop) (attempt : Sh α)
    (past : Past interface World) (world : World) : Prop :=
  Attempt.Guarded ((system cfg repo).restrict Writes)
    (fun past moment => True ∧ Course found (moment :: past) moment.after) post
    (fun past world _ => Course found past world) attempt past world

theorem course_keeps : Keeps ((system cfg repo).restrict Writes) Operation.unwritten
    (fun past moment => True ∧ Course found (moment :: past) moment.after)
    (Course found) := by
  intro past world operation answer after unwritten step course
  have next := course.unwritten unwritten step.1
  exact ⟨⟨trivial, next⟩, next⟩

/-- A part of the course is kept by all that writes nothing down. -/
theorem written_keeps
    (stands : ∀ past world, Written entries state past world → Course found past world) :
    Keeps ((system cfg repo).restrict Writes) Operation.unwritten
      (fun past moment => True ∧ Course found (moment :: past) moment.after)
      (Written entries state) := by
  intro past world operation answer after unwritten step written
  have next : Written entries state (⟨world, operation, answer, after⟩ :: past) after :=
    written.unwritten unwritten step.1
  exact ⟨⟨trivial, stands _ _ next⟩, next⟩

/-! ## The parts of a run -/

abbrev PlanWritten (found : Dict) (origin : String) (targets : List String) :
    Past interface World → World → Prop :=
  Written [.planned targets, .wrote (.onAttempt origin)] (onAttempt found origin)

theorem planned_keeps (targets : List String) (due : Due found origin) :
    Keeps ((system cfg repo).restrict Writes) Operation.unwritten
      (fun past moment => True ∧ Course found (moment :: past) moment.after)
      (PlanWritten found origin targets) :=
  written_keeps fun _ _ written => .planned origin targets due written

/-- Once the outcome is on record, the rest of the run changes nothing. -/
theorem Runs.last {α : Type} {attempt : Sh α}
    (within : attempt.Within Operation.unwritten) (course : Course found past world) :
    Runs cfg repo found (fun past world _ => Course found past world) attempt past
      world :=
  within.guarded course_keeps course

theorem recordSuccess_runs (due : Due found origin)
    (deployed : AllDeployed targets past) (written : PlanWritten found origin targets past world) :
    Runs cfg repo found (fun past world _ => Course found past world)
      (recordSuccess origin) past world := by
  apply ask_bind.mpr
  intro now world₁ step₁
  have ⟨course₁, written₁⟩ := planned_keeps _ due _ _ .now now world₁ trivial step₁ written
  refine ⟨course₁, ?_⟩
  apply ask_bind.mpr
  intro answer world₂ step₂
  have durable : answer = true := step₂.2
  subst durable
  rcases step₂.1 with ⟨state, applied, rfl⟩
  rw [written₁.state] at applied
  cases applied
  suffices course : Course found (⟨world₁, .stateSet (.onSuccess origin now), true, _⟩ ::
      ⟨world, .now, now, world₁⟩ :: past)
      { world₁ with state := .document (onSuccess (onAttempt found origin) origin now) } from
    ⟨⟨trivial, course⟩, course⟩
  apply Course.succeeded origin targets now due deployed.cons.cons
  exact ⟨congrArg (_ :: ·) written₁.entries, rfl⟩

theorem recordFail_runs (due : Due found origin)
    (written : PlanWritten found origin targets past world) :
    Runs cfg repo found (fun past world _ => Course found past world)
      (recordFail origin) past world := by
  apply ask_bind.mpr
  intro now world₁ step₁
  have ⟨course₁, written₁⟩ := planned_keeps _ due _ _ .now now world₁ trivial step₁ written
  refine ⟨course₁, ?_⟩
  apply ask_bind.mpr
  intro answer world₂ step₂
  have durable : answer = true := step₂.2
  subst durable
  rcases step₂.1 with ⟨state, applied, rfl⟩
  rw [written₁.state] at applied
  suffices course : Course found (⟨world₁, .stateSet (.onFail origin now), true, _⟩ ::
      ⟨world, .now, now, world₁⟩ :: past) { world₁ with state := .document state } from
    ⟨⟨trivial, course⟩, course⟩
  apply Course.failed origin targets now state due applied
  exact ⟨congrArg (_ :: ·) written₁.entries, rfl⟩

theorem rollback_runs {job : Job} {names : List String} {failed : String}
    (due : Due found job.origin) (written : PlanWritten found job.origin targets past world) :
    Runs cfg repo found (fun past world _ => Course found past world)
      (rollback cfg job names failed) past world := by
  have keeps := @planned_keeps cfg repo _ _ targets due
  apply Attempt.bind ((checkout_unwritten _).guarded keeps written)
  intro past₁ world₁ _ written₁
  apply Attempt.bind ((unwritten_of_aside (notify_steady _ _ _)).guarded keeps written₁)
  intro past₂ world₂ _ written₂
  have asked : (ask (.rollbackTargets failed names)).Steady Operation.unwritten :=
    ask_steady trivial
  apply Attempt.bind (asked.guarded keeps written₂)
  intro past₃ world₃ restore written₃
  have restored : (restoreAll cfg (readLines restore) "").Steady Operation.unwritten :=
    (restoreAll_steady _ _).mono fun _ working => working.unwritten
  apply Attempt.bind (restored.guarded keeps written₃)
  intro past₄ world₄ rbFail written₄
  apply Attempt.bind (recordFail_runs due written₄)
  intro past₅ world₅ _ course₅
  apply Runs.last _ course₅
  apply Attempt.Within.bind (unwritten_of_aside (reportRollback_steady _ _)).within
  exact fun _ => finish_unwritten false 1

abbrev Deploying (found : Dict) (origin : String) (targets done : List String)
    (past : Past interface World) (world : World) : Prop :=
  PlanWritten found origin targets past world ∧ AllDeployed done past

theorem deploying_keeps {done : List String} (due : Due found origin) :
    Keeps ((system cfg repo).restrict Writes) Operation.unwritten
      (fun past moment => True ∧ Course found (moment :: past) moment.after)
      (Deploying found origin targets done) := by
  intro past world operation answer after unwritten step ⟨planned, deployed⟩
  have ⟨now, next⟩ := planned_keeps _ due past world operation answer after unwritten
    step planned
  exact ⟨now, next, deployed.cons⟩

theorem deploying_deploys {target : String} {done : List String}
    (due : Due found origin) :
    Deploys ((system cfg repo).restrict Writes) target
      (fun past moment => True ∧ Course found (moment :: past) moment.after)
      (Deploying found origin targets done) (Deploying found origin targets (target :: done)) where
  aside := fun past world operation answer after aside =>
    deploying_keeps due past world operation answer after aside.unwritten
  playbook := fun past world answer after =>
    deploying_keeps due past world (.playbook target) answer after trivial
  ansible := by
    intro past world stage answer after step _ deploying
    exact deploying_keeps due past world (.ansible stage target) answer after trivial
      step deploying
  applied := by
    intro past world after step _ ⟨planned, deployed⟩
    have ⟨_, next⟩ := planned_keeps _ due past world (.ansible .apply target) (0 : Nat)
      after trivial step planned
    refine ⟨next, List.forall_mem_cons.mpr ⟨?_, deployed.cons⟩⟩
    exact ⟨_, List.mem_cons_self, rfl, rfl⟩
  absent := by
    intro before past world step probed _ ⟨planned, deployed⟩
    exact ⟨planned, List.forall_mem_cons.mpr ⟨⟨_, probed, rfl, rfl⟩, deployed⟩⟩

theorem deployAll_runs (nodup : targets.Nodup) (due : Due found origin)
    (written : PlanWritten found origin targets past world) :
    Runs cfg repo found
      (fun past world failed => PlanWritten found origin targets past world ∧
        (failed = none → AllDeployed targets past))
      (deployAll cfg targets) past world := by
  have start : Deploying found origin targets [] past world := ⟨written, allDeployed_nil⟩
  apply Attempt.result_mono (deployAll_guarded (Deploying found origin targets)
    (fun _ => Deploying found origin targets) nodup (by simp)
    (fun _ _ _ operation _ _ aside =>
      deploying_keeps due _ _ operation _ _ aside.unwritten)
    (fun _ _ _ _ holds => holds) (fun _ _ _ _ => deploying_deploys due) start)
  intro past₁ world₁ failed ended
  cases failed with
  | none => exact ⟨ended.1, fun _ target member => ended.2 target (by simp [member])⟩
  | some target =>
      rcases ended with ⟨_, _, _, planned, _⟩
      exact ⟨planned, nofun⟩

theorem deploy_runs {job : Job} {plan : Plan} (nodup : plan.targets.Nodup)
    (due : Due found job.origin)
    (written : PlanWritten found job.origin plan.targets past world) :
    Runs cfg repo found (fun past world _ => Course found past world)
      (deploy cfg job plan) past world := by
  have keeps := @planned_keeps cfg repo _ _ plan.targets due
  apply Attempt.bind ((unwritten_of_aside (log_steady _)).guarded keeps written)
  intro past₁ world₁ _ written₁
  apply Attempt.bind ((unwritten_of_aside (notify_steady _ _ _)).guarded keeps written₁)
  intro past₂ world₂ _ written₂
  apply Attempt.bind (deployAll_runs nodup due written₂)
  intro past₃ world₃ failed ⟨written₃, deployed⟩
  cases failed with
  | some target => exact rollback_runs due written₃
  | none =>
      apply Attempt.bind (recordSuccess_runs due (deployed rfl) written₃)
      intro past₄ world₄ _ course₄
      apply Runs.last _ course₄
      apply Attempt.Within.bind (unwritten_of_aside (log_steady _)).within
      intro _
      apply Attempt.Within.bind (unwritten_of_aside (notify_steady _ _ _)).within
      exact fun _ => finish_unwritten true 0

theorem adoptOnly_runs {job : Job} {skipped : List String} (due : Due found job.origin)
    (written : PlanWritten found job.origin [] past world) :
    Runs cfg repo found (fun past world _ => Course found past world)
      (adoptOnly cfg job skipped) past world := by
  have keeps := @planned_keeps cfg repo _ _ [] due
  unfold adoptOnly
  split
  · apply Attempt.bind ((unwritten_of_aside (log_steady _)).guarded keeps written)
    intro past₁ world₁ _ written₁
    apply Attempt.bind (recordSuccess_runs due allDeployed_nil written₁)
    intro past₂ world₂ _ course₂
    apply Runs.last _ course₂
    apply Attempt.Within.bind (unwritten_of_aside (notify_steady _ _ _)).within
    exact fun _ => finish_unwritten true 0
  · apply Attempt.bind ((unwritten_of_aside (log_steady _)).guarded keeps written)
    intro past₁ world₁ _ written₁
    apply Attempt.bind (recordSuccess_runs due allDeployed_nil written₁)
    intro past₂ world₂ _ course₂
    apply Runs.last _ course₂
    apply Attempt.Within.bind (unwritten_of_aside (progress_steady _ _ _)).within
    exact fun _ => finish_unwritten true 0

theorem stateSet_runs (due : Due found origin) (written : Written [] found past world) :
    Runs cfg repo found
      (fun past world _ => Written [.wrote (.onAttempt origin)] (onAttempt found origin)
        past world) (stateSet (.onAttempt origin)) past world := by
  apply ask_bind.mpr
  intro answer after step
  have durable : answer = true := step.2
  subst durable
  rcases step.1 with ⟨state, applied, rfl⟩
  rw [written.state] at applied
  cases applied
  suffices next : Written [.wrote (.onAttempt origin)] (onAttempt found origin)
      (⟨world, .stateSet (.onAttempt origin), true, _⟩ :: past)
      { world with state := .document (onAttempt found origin) } from
    ⟨⟨trivial, .attempted origin due next⟩, next⟩
  exact ⟨congrArg (_ :: ·) written.entries, rfl⟩

theorem adopt_runs {job : Job} (due : Due found job.origin)
    (written : Written [] found past world) :
    Runs cfg repo found
      (fun past world plan => PlanWritten found job.origin plan.targets past world ∧
        plan.targets.Nodup) (adopt cfg job) past world := by
  have keeps : Keeps ((system cfg repo).restrict Writes) Operation.unwritten
      (fun past moment => True ∧ Course found (moment :: past) moment.after)
      (Written [.wrote (.onAttempt job.origin)] (onAttempt found job.origin)) :=
    written_keeps fun _ _ written => .attempted job.origin due written
  apply Attempt.bind (stateSet_runs due written)
  intro past₁ world₁ _ written₁
  apply Attempt.bind ((checkout_unwritten _).guarded keeps written₁)
  intro past₂ world₂ _ written₂
  apply Attempt.bind ((unwritten_of_aside (progress_steady _ _ _)).guarded keeps written₂)
  intro past₃ world₃ _ written₃
  have diff : (ask (.gitDiff job.lastGood job.origin)).Steady Operation.unwritten :=
    ask_steady trivial
  apply Attempt.bind (diff.guarded keeps written₃)
  intro past₄ world₄ changed written₄
  apply ask_bind.mpr
  intro answer world₅ step₅
  have same : world₅ = world₄ := step₅.1.1
  have computed : readLines answer = planTargets cfg.rules (csv cfg.allowlist)
      (csv cfg.neverAuto) (readLines changed) := by
    rw [step₅.1.2, readLines_planTargets fun _ member => (readLines_each member).2]
  subst same
  have written₅ : PlanWritten found job.origin (readLines answer)
      (⟨world₅, .plan (readLines changed), answer, world₅⟩ :: past₄) world₅ :=
    ⟨congrArg (_ :: ·) written₄.entries, written₄.state⟩
  refine ⟨⟨trivial, .planned job.origin _ due written₅⟩, ?_⟩
  have skipped : (ask (.planSkipped (readLines changed))).Steady Operation.unwritten :=
    ask_steady trivial
  apply Attempt.bind (skipped.guarded (planned_keeps _ due) written₅)
  intro past₆ world₆ _ written₆
  refine ⟨written₆, ?_⟩
  dsimp only
  rw [computed]
  exact nodup_planTargets

theorem controller_runs (loaded : world.state.load = some found) :
    Runs cfg repo found (fun past after _ => Course found past after) (controller cfg)
      [] world := by
  have keeps : Keeps ((system cfg repo).restrict Writes) Operation.aside
      (fun past moment => True ∧ Course found (moment :: past) moment.after)
      (Written [] found) := fun past world operation answer after aside =>
    written_keeps (fun _ _ written => .idle written) past world operation answer after
      aside.unwritten
  have start : Written [] found [] world := ⟨rfl, loaded⟩
  apply Attempt.bind (Attempt.mono (gate_guarded keeps start) (fun _ _ _ holds => holds)
    fun _ _ _ holds => .idle holds.1)
  intro past₁ world₁ job ⟨⟨written₁, _⟩, gated⟩
  have due : Due found job.origin := by
    constructor
    · rcases gated.resolved with ⟨_, answer, _, _, resolved⟩
      rw [resolved, substitute_substitute]
    · rcases gated.needed with ⟨state, load, needed⟩
      rw [written₁.state] at load
      cases load
      exact needed
  apply Attempt.bind (adopt_runs due written₁)
  intro past₂ world₂ plan ⟨written₂, nodup⟩
  split
  · next nothing =>
      rw [nothing] at written₂
      exact adoptOnly_runs due written₂
  · exact deploy_runs nodup due written₂

/-! ## One run -/

/-- Only a recorded success moves the baseline. -/
theorem unmoved_of_step {moment : Moment interface World}
    (step : (system cfg repo).Step moment.before moment.operation moment.answer
      moment.after)
    (other : ∀ found, entry moment = some found → found.baseline = none) :
    moment.after.state.lastGood = moment.before.state.lastGood := by
  rcases moment with ⟨before, operation, answer, after⟩
  dsimp only at step ⊢
  by_cases stateless : operation.stateless
  · exact congrArg StateFile.lastGood (system_stateless stateless step)
  · cases operation with
    | stateSet command =>
        change Bool at answer
        cases answer with
        | false => exact congrArg (fun world => world.state.lastGood) step
        | true =>
            rcases step with ⟨state, applied, rfl⟩
            apply apply_lastGood _ applied
            intro sha now success
            have moves := other (.wrote command) rfl
            rw [success] at moves
            cases moves
    | _ => exact absurd trivial stateless

theorem mem_of_entries {moments : List (Moment interface World)} {known : Entry}
    (written : moments.reverse.filterMap entry = entries) (member : known ∈ entries) :
    ∃ moment ∈ moments, entry moment = some known := by
  rw [← written] at member
  rcases List.mem_filterMap.mp member with ⟨moment, among, same⟩
  exact ⟨moment, List.mem_reverse.mp among, same⟩

/-- What the last moment of a course can have written. -/
theorem Course.last_entry {moment : Moment interface World}
    (course : Course found (moment :: past) world) :
    (∀ last, entry moment = some last → last.outcome = none ∧ last.baseline = none) ∨
    (∃ origin targets now, entry moment = some (.wrote (.onSuccess origin now)) ∧
      substitute origin = origin ∧
      past.filterMap entry = [.planned targets, .wrote (.onAttempt origin)] ∧
      AllDeployed targets past ∧
      world.state.load = some (onSuccess (onAttempt found origin) origin now)) ∨
    ∃ origin targets now, entry moment = some (.wrote (.onFail origin now)) ∧
      past.filterMap entry = [.planned targets, .wrote (.onAttempt origin)] := by
  cases wrote : entry moment with
  | none => exact .inl nofun
  | some last =>
      have cons (past : Past interface World) :=
        List.filterMap_cons_some (l := past) wrote
      cases course with
      | idle written =>
          have entries := written.entries
          rw [cons] at entries
          cases entries
      | attempted origin due written =>
          have entries := written.entries
          rw [cons] at entries
          cases (List.cons.inj entries).1
          exact .inl fun _ same => by
            cases same
            exact ⟨rfl, rfl⟩
      | planned origin targets due written =>
          have entries := written.entries
          rw [cons] at entries
          cases (List.cons.inj entries).1
          exact .inl fun _ same => by
            cases same
            exact ⟨rfl, rfl⟩
      | succeeded origin targets now due deployed written =>
          have entries := written.entries
          rw [cons] at entries
          cases (List.cons.inj entries).1
          refine .inr (.inl ⟨origin, targets, now, rfl, due.resolved,
            (List.cons.inj entries).2, ?_, written.state⟩)
          intro target member
          rcases deployed target member with ⟨deploy, among, done⟩
          rcases List.mem_cons.mp among with last | earlier
          · rcases moment with ⟨before, operation, answer, after⟩
            rw [last] at done
            cases operation <;> first | cases wrote | exact done.elim
          · exact ⟨deploy, earlier, done⟩
      | failed origin targets now state due recorded written =>
          have entries := written.entries
          rw [cons] at entries
          cases (List.cons.inj entries).1
          exact .inr (.inr ⟨origin, targets, now, rfl, (List.cons.inj entries).2⟩)

theorem Course.endsWell {early : List (Moment interface World)}
    {moment : Moment interface World}
    (step : (system cfg repo).Step moment.before moment.operation moment.answer
      moment.after)
    (course : Course found (moment :: early.reverse) moment.after) :
    EndsWell early moment := by
  have unmoved := unmoved_of_step step
  rcases course.last_entry with quiet | ⟨origin, targets, now, wrote, resolved, before,
    deployed, state⟩ | ⟨origin, targets, now, wrote, before⟩
  · refine ⟨?_, ?_, ?_, unmoved, ?_⟩
    · intro last sha found settles
      simp [quiet last found] at settles
    · intro last sha found moves
      simp [quiet last found] at moves
    · intro last sha found moves
      simp [quiet last found] at moves
    · intro last sha found moves
      simp [quiet last found] at moves
  · have only {last : Entry} (found : entry moment = some last) :
        last = .wrote (.onSuccess origin now) := by
      rw [wrote] at found
      exact (Option.some.inj found).symm
    have moved {last : Entry} {sha : String} (found : entry moment = some last)
        (moves : last.baseline = some sha) : sha = origin := by
      rw [only found] at moves
      exact (Option.some.inj moves).symm
    refine ⟨?_, ?_, ?_, unmoved, ?_⟩
    · intro last sha found settles present
      rw [only found] at settles
      rcases settles with settles | moves
      · exact absurd (Option.some.inj settles).symm present
      · rw [← Option.some.inj moves]
        exact mem_of_entries before (by simp)
    · intro last sha found moves
      have ⟨earlier, among, same⟩ := mem_of_entries before List.mem_cons_self
      exact ⟨earlier, among, targets, same⟩
    · intro last sha found moves earlier among names planned target member
      have listed : Entry.planned names ∈ early.reverse.filterMap entry :=
        List.mem_filterMap.mpr ⟨earlier, List.mem_reverse.mpr among, planned⟩
      rw [before] at listed
      have same : names = targets := by simpa using listed
      rw [same] at member
      rcases deployed target member with ⟨deploy, place, done⟩
      exact ⟨deploy, List.mem_reverse.mp place, done⟩
    · intro last sha found moves
      rw [moved found moves, ← load_lastGood state, onSuccess_lastGood, resolved]
  · have only {last : Entry} (found : entry moment = some last) :
        last = .wrote (.onFail origin now) := by
      rw [wrote] at found
      exact (Option.some.inj found).symm
    refine ⟨?_, ?_, ?_, unmoved, ?_⟩
    · intro last sha found settles present
      rw [only found] at settles
      rcases settles with settles | moves
      · rw [← Option.some.inj settles]
        exact mem_of_entries before (by simp)
      · cases moves
    · intro last sha found moves
      rw [only found] at moves
      cases moves
    · intro last sha found moves
      rw [only found] at moves
      cases moves
    · intro last sha found moves
      rw [only found] at moves
      cases moves

theorem run_courses {run : CdRun} (loaded : run.before.state.load = some found)
    (valid : run.Valid ((system cfg repo).restrict Writes)
      (fun _ => (controller cfg).run)) :
    Course found run.moments.reverse run.after ∧
      ∀ early moment late, run.moments = early ++ moment :: late →
        EndsWell early moment := by
  have guarded : Effects.Guarded ((system cfg repo).restrict Writes)
      (fun past moment => True ∧ Course found (moment :: past) moment.after)
      (fun past world _ => Course found past world) (controller cfg).run [] run.before := by
    apply Effects.Guarded.post_mono (controller_runs loaded)
    intro past world outcome holds
    cases outcome <;> exact holds
  constructor
  · have final := History.inv_after guarded (.idle ⟨rfl, loaded⟩) valid
    rwa [List.append_nil] at final
  · intro early moment late split
    have course := (Effects.Guarded.moment_good guarded valid split).2
    have member : moment ∈ run.moments := by simp [split]
    rw [List.append_nil] at course
    exact course.endsWell (valid.steps moment member).1

/-! ## A history -/

/-- What the state file says after some runs. -/
structure OnRecord (runs : List CdRun) (state : Dict) : Prop where
  failed : Dict.get state "failed_sha" (.str "") = .str ((outcomes runs).getLastD "")
  seen : ∀ sha, (attempts runs).getLast? = some sha →
    state.lookup "seen_sha" = some (.str (strip sha))

theorem recorded_nil : OnRecord [] ∅ := by
  constructor
  · rfl
  · simp [attempts, entriesOf]

theorem entriesOf_snoc (runs : List CdRun) (run : CdRun) :
    entriesOf (runs ++ [run]) = entriesOf runs ++ run.moments.filterMap entry := by
  simp [entriesOf]

/-- A commit that needs a deploy is not the one attempted last. -/
theorem OnRecord.fresh {runs : List CdRun} {sha : String} (recorded : OnRecord runs found)
    (due : Due found origin) (last : (attempts runs).getLast? = some sha) :
    sha ≠ origin := by
  intro same
  have handled := needsDeploy_seen (same ▸ recorded.seen sha last)
  rw [due.needed] at handled
  cases handled

theorem entries_of_written {run : CdRun}
    (written : Written entries state run.moments.reverse run.after) :
    run.moments.filterMap entry = entries.reverse := by
  rw [← written.entries, List.filterMap_reverse, List.reverse_reverse]

theorem attempts_snoc (runs : List CdRun) (run : CdRun) :
    attempts (runs ++ [run]) =
      attempts runs ++ (run.moments.filterMap entry).filterMap Entry.attempt := by
  rw [attempts, entriesOf_snoc, List.filterMap_append, attempts]

theorem outcomes_snoc (runs : List CdRun) (run : CdRun) :
    outcomes (runs ++ [run]) =
      outcomes runs ++ (run.moments.filterMap entry).filterMap Entry.outcome := by
  rw [outcomes, entriesOf_snoc, List.filterMap_append, outcomes]

/-- The attempt that the run added, if it got that far. -/
theorem Course.attempted_once {run : CdRun} (course : Course found run.moments.reverse run.after)
    (runs : List CdRun) :
    attempts (runs ++ [run]) = attempts runs ∨
      ∃ origin, Due found origin ∧ attempts (runs ++ [run]) = attempts runs ++ [origin] := by
  cases course with
  | idle written =>
      rw [attempts_snoc, entries_of_written written]
      exact .inl (List.append_nil _)
  | attempted origin due written | planned origin _ due written
  | succeeded origin _ _ due _ written | failed origin _ _ _ due _ written =>
      rw [attempts_snoc, entries_of_written written]
      exact .inr ⟨origin, due, rfl⟩

theorem onFail_seen {failed : Dict} {now : Int}
    (recorded : onFail (onAttempt found origin) origin now = some failed) :
    failed.lookup "seen_sha" = some (.str (strip origin)) :=
  (onFail_keeps "seen_sha" recorded (by decide)).trans onAttempt_seen

theorem onFail_failed {failed : Dict} {now : Int}
    (recorded : onFail state origin now = some failed) :
    Dict.get failed "failed_sha" (.str "") = .str origin := by
  rcases Option.map_eq_some_iff.mp recorded with ⟨count, _, rfl⟩
  simp [Dict.get, AList.lookup_insert_ne]

/-- The record follows the course of the run. -/
theorem Course.recorded {runs : List CdRun} {run : CdRun} (recorded : OnRecord runs found)
    (course : Course found run.moments.reverse run.after) :
    ∃ state, run.after.state.load = some state ∧ OnRecord (runs ++ [run]) state := by
  have attempted {origin : String} {state : Dict}
      (same : attempts (runs ++ [run]) = attempts runs ++ [origin])
      (seen : state.lookup "seen_sha" = some (.str (strip origin))) :
      ∀ sha, (attempts (runs ++ [run])).getLast? = some sha →
        state.lookup "seen_sha" = some (.str (strip sha)) := by
    intro sha last
    rw [same, List.getLast?_concat] at last
    rw [← Option.some.inj last]
    exact seen
  cases course with
  | idle written =>
      refine ⟨_, written.state, ?_, ?_⟩
      · rw [outcomes_snoc, entries_of_written written]
        simpa using recorded.failed
      · rw [attempts_snoc, entries_of_written written]
        simpa using recorded.seen
  | attempted origin due written | planned origin _ due written =>
      refine ⟨_, written.state, ?_, attempted ?_ onAttempt_seen⟩
      · rw [outcomes_snoc, entries_of_written written, onAttempt_get (by decide)]
        exact (List.append_nil (outcomes runs)).symm ▸ recorded.failed
      · rw [attempts_snoc, entries_of_written written]
        rfl
  | succeeded origin targets now due _ written =>
      refine ⟨_, written.state, ?_, attempted ?_ (onSuccess_seen.trans onAttempt_seen)⟩
      · have ended : outcomes (runs ++ [run]) = outcomes runs ++ [""] := by
          rw [outcomes_snoc, entries_of_written written]
          rfl
        rw [ended, List.getLastD_concat]
        simp [Dict.get, onSuccess]
      · rw [attempts_snoc, entries_of_written written]
        rfl
  | failed origin targets now state due failed written =>
      refine ⟨_, written.state, ?_, attempted ?_ (onFail_seen failed)⟩
      · have ended : outcomes (runs ++ [run]) = outcomes runs ++ [origin] := by
          rw [outcomes_snoc, entries_of_written written]
          rfl
        rw [ended, List.getLastD_concat, onFail_failed failed]
      · rw [attempts_snoc, entries_of_written written]
        rfl

/-- Only an attempted commit is recorded as failed, and no blank one. -/
theorem Course.nonempty {run : CdRun} (course : Course found run.moments.reverse run.after) :
    ∀ sha now, .wrote (.onFail sha now) ∈ run.moments.filterMap entry → sha ≠ "" := by
  intro sha now member
  cases course with
  | idle written | attempted _ _ written | planned _ _ _ written
  | succeeded _ _ _ _ _ written =>
      rw [entries_of_written written] at member
      simp at member
  | failed origin targets other state due failed written =>
      rw [entries_of_written written] at member
      have same : sha = origin := by
        simp at member
        exact member.1
      intro empty
      exact needsDeploy_strip due.needed (by rw [← same, empty]; rfl)

/-- The attempts of a history, each different from the one before. -/
theorem unrepeated_of_chain {shas : List String} (chain : shas.IsChain (· ≠ ·))
    (sha : String) (before between after : List String)
    (equal : shas = before ++ sha :: (between ++ sha :: after)) :
    ∃ other ∈ between, other ≠ sha := by
  rw [equal, List.isChain_append] at chain
  cases between with
  | nil =>
      have twice := chain.2.1
      simp at twice
  | cons other rest =>
      have first := chain.2.1
      simp only [List.cons_append, List.isChain_cons_cons] at first
      exact ⟨other, List.mem_cons_self, first.1.symm⟩

end

/-- From an empty state on, no commit is attempted twice in a row, only complete
deploys of an attempted commit move the baseline, and `failed_sha` is the last
outcome. -/
theorem attempt_law {cfg : Config} {repo : Repository} {initial final : World}
    {runs : List CdRun}
    (history : History ((system cfg repo).restrict Writes)
      (fun _ => (controller cfg).run) initial runs final)
    (empty : initial.state.load = some ∅) : AttemptLaw runs final := by
  suffices law : AttemptLaw runs final ∧ (attempts runs).IsChain (· ≠ ·) ∧
      ∃ state, final.state.load = some state ∧ OnRecord runs state from law.1
  induction history with
  | start =>
      refine ⟨⟨?_, ?_, ?_, ?_⟩, .nil, ∅, empty, recorded_nil⟩
      · intro sha before between after split
        simp [attempts, entriesOf] at split
      · simp
      · rw [World.failedSha, empty]
        exact recorded_nil.failed
      · simp [entriesOf]
  | @next runs middle earlier run continues valid induction =>
      rcases induction with ⟨law, chain, found, loaded, recorded⟩
      rw [← continues] at loaded
      have ⟨course, ends⟩ := run_courses loaded valid
      rcases course.recorded recorded with ⟨state, stored, kept⟩
      have extended : (attempts (runs ++ [run])).IsChain (· ≠ ·) := by
        rcases course.attempted_once runs with same | ⟨origin, due, more⟩
        · rw [same]
          exact chain
        · rw [more, List.isChain_append]
          refine ⟨chain, .singleton _, ?_⟩
          intro sha last other first
          rw [← Option.some.inj first]
          exact recorded.fresh due last
      refine ⟨⟨unrepeated_of_chain extended, ?_, ?_, ?_⟩, extended, state, stored, kept⟩
      · intro other member
        rcases List.mem_append.mp member with before | last
        · exact law.ends other before
        · rw [List.mem_singleton.mp last]
          exact ends
      · rw [World.failedSha, stored]
        exact kept.failed
      · intro sha now member
        rw [entriesOf_snoc] at member
        rcases List.mem_append.mp member with before | last
        · exact law.nonempty sha now before
        · exact course.nonempty sha now last

/-! ## A commit that fails and the one after it -/

def freshWorld : World := { pilotWorld "a" with state := .missing }

def homepageDiff : String := "ansible/roles/homepage/tasks/main.yml\n"

/-- As `willing`, but the playbook is not applied. -/
def failing (commit diff : String) : (operation : Operation) → Answer operation
  | .ansible .apply _ => (1 : Nat)
  | operation => willing commit diff operation

def failedRun : CdRun := pilotRun (failing "b" homepageDiff) freshWorld 60

/-- The tag is still at the commit that failed. -/
def heldRun : CdRun := pilotRun (willing "b" homepageDiff) failedRun.after 60

/-- The tag has moved. -/
def supersedingRun : CdRun := pilotRun (willing "c" homepageDiff) heldRun.after 60

def wrote (moment : Moment interface World) : Bool :=
  match moment.operation, moment.answer with
  | .stateSet _, (written : Bool) => written
  | _, _ => true

theorem writes_of_wrote {moment : Moment interface World} (written : wrote moment = true) :
    Writes moment := by
  rcases moment with ⟨before, operation, answer, after⟩
  cases operation <;> first | exact trivial | exact written

theorem pilotRun_writes {choose : Choice} {world : World} {fuel : Nat}
    (written : (pilotRun choose world fuel).moments.all wrote = true) :
    (pilotRun choose world fuel).Valid ((system pilotConfig pilotRepository).restrict Writes)
      (fun _ => (controller pilotConfig).run) :=
  Executes.restrict (pilotRun_valid _ _ _) fun moment member =>
    writes_of_wrote (List.all_eq_true.mp written moment member)

theorem pilotRun_before (choose : Choice) (world : World) (fuel : Nat) :
    (pilotRun choose world fuel).before = world := rfl

theorem supersedingRun_computed :
    attempts [failedRun, heldRun, supersedingRun] = ["b", "c"] ∧
      outcomes [failedRun, heldRun, supersedingRun] = ["b", ""] ∧
      [failedRun, heldRun, supersedingRun].all (fun run => run.moments.all wrote) = true := by
  decide +kernel

/-- The commit that failed is not attempted again, and the one after it is deployed. -/
theorem attempt_law_superseded :
    AttemptLaw [failedRun, heldRun, supersedingRun] supersedingRun.after ∧
      attempts [failedRun, heldRun, supersedingRun] = ["b", "c"] ∧
      outcomes [failedRun, heldRun, supersedingRun] = ["b", ""] := by
  rcases supersedingRun_computed with ⟨attempted, recorded, written⟩
  simp only [List.all_cons, List.all_nil, Bool.and_true, Bool.and_eq_true] at written
  have first : History ((system pilotConfig pilotRepository).restrict Writes)
      (fun _ => (controller pilotConfig).run) freshWorld [failedRun] failedRun.after :=
    History.start.next failedRun (pilotRun_before _ _ _) (pilotRun_writes written.1)
  have second := first.next heldRun (pilotRun_before _ _ _) (pilotRun_writes written.2.1)
  have third := second.next supersedingRun (pilotRun_before _ _ _)
    (pilotRun_writes written.2.2)
  exact ⟨attempt_law third rfl, attempted, recorded⟩

end Homelab.Autodeploy
