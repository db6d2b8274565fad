import Homelab.Autodeploy.Welcome

/-! # What a killed run leaves behind

`seen_sha` is durable before anything is deployed, `failed_sha` only after the
whole rollback. A run that is killed in between leaves a state from which the
commit counts as handled.
-/

namespace Homelab.Autodeploy

open Effects Text

/-! ## What an attempt leaves -/

/-- The target a playbook was applied to, whatever came of it. -/
def touched (moment : Moment interface World) : Option String :=
  match moment.operation with
  | .ansible .apply target => some target
  | _ => none

def Attempted (origin : String) (run : CdRun) : Prop :=
  ∃ moment ∈ run.moments, durable moment = some (.onAttempt origin)

def Succeeded (origin : String) (run : CdRun) : Prop :=
  ∃ moment ∈ run.moments, ∃ now, durable moment = some (.onSuccess origin now)

def Failed (origin : String) (run : CdRun) : Prop :=
  ∃ moment ∈ run.moments, ∃ now, durable moment = some (.onFail origin now)

/-- A later run takes the commit up again and applies every target that the
attempt touched. -/
def Resumes (origin : String) (attempt run : CdRun) : Prop :=
  Attempted origin run ∧ ∀ moment ∈ attempt.moments, ∀ target,
    touched moment = some target → ∃ again ∈ run.moments, touched again = some target

/-- The attempt is not lost: it was completed, it is taken up again, or all
metrics say that the commit is not applied. -/
def KeptInSight (origin : String) (attempt : CdRun) (later : List CdRun) : Prop :=
  Succeeded origin attempt ∨ (∃ run ∈ later, Resumes origin attempt run) ∨
    ∀ moment ∈ Run.momentsOf later, ∀ metrics, published moment = some metrics →
      metrics.NotApplied

/-- As long as the newest tag is at `origin`, git resolves it to that or fails. -/
def Newest (origin : String) (moment : Moment interface World) : Prop :=
  match moment.operation, moment.answer with
  | .revParse _, (text : String) => substitute text = origin ∨ substitute text = ""
  | _, _ => True

/-! ## Where a run stands -/

/-- What the state file says about the attempt, given the one the run found. -/
inductive Standing (found : StateFile) (past : Past interface World)
    (world : World) : Prop
  | unattempted
      (none : ∀ moment ∈ past, ∀ origin, durable moment ≠ some (.onAttempt origin))
  | pending (state : Dict) (origin : String) (loaded : found.load = some state)
      (resolved : substitute origin = origin) (needed : needsDeploy state origin = true)
      (stands : world.state = .document (onAttempt state origin))
      (only : ∀ moment ∈ past, ∀ command, durable moment = some command →
        command = .onAttempt origin)
  | failed (state : Dict) (origin : String) (holds : held state = true)
      (handled : needsDeploy state origin = false)
      (stands : world.state = .document state)
      (recorded : ∃ moment ∈ past, ∃ now, durable moment = some (.onFail origin now))
      (only : ∀ moment ∈ past, ∀ other, durable moment = some (.onAttempt other) →
        other = origin)
  | succeeded (origin : String)
      (recorded : ∃ moment ∈ past, ∃ now, durable moment = some (.onSuccess origin now))
      (only : ∀ moment ∈ past, ∀ other, durable moment = some (.onAttempt other) →
        other = origin)

inductive Awaiting (found : StateFile) (origin : String)
    (past : Past interface World) (world : World) : Prop
  | unattempted (none : ∀ moment ∈ past, durable moment = none)
  | pending (state : Dict) (loaded : found.load = some state)
      (resolved : substitute origin = origin) (needed : needsDeploy state origin = true)
      (stands : world.state = .document (onAttempt state origin))
      (only : ∀ moment ∈ past, ∀ command, durable moment = some command →
        command = .onAttempt origin)

section

variable {cfg : Config} {repo : Repository} {found : StateFile} {origin : String}
  {past : Past interface World} {world after : World}

theorem Awaiting.standing (awaiting : Awaiting found origin past world) :
    Standing found past world := by
  cases awaiting with
  | unattempted none =>
      apply Standing.unattempted
      intro moment member origin
      rw [none moment member]
      exact nofun
  | pending state loaded resolved needed stands only =>
      exact .pending state origin loaded resolved needed stands only

theorem durable_stateless {operation : Operation} (stateless : operation.stateless)
    (answer : Answer operation) :
    durable ⟨world, operation, answer, after⟩ = none := by
  cases operation <;> first | rfl | exact stateless.elim

theorem system_stateless {operation : Operation} (stateless : operation.stateless)
    {answer : Answer operation}
    (step : (system cfg repo).Step world operation answer after) :
    after.state = world.state := by
  cases operation with
  | stateSet => exact stateless.elim
  | gitReset sha =>
      change Bool at answer
      cases answer with
      | true =>
          obtain rfl : after = { world with checkout := ⟨sha, repo.files sha⟩ } := step
          rfl
      | false =>
          rcases step with ⟨checkout, rfl⟩
          rfl
  | ansible stage target => exact (system_ansible step).1
  | plan => exact congrArg World.state step.1
  | planSkipped => exact congrArg World.state step.1
  | rollbackTargets => exact congrArg World.state step.1
  | playbook => exact congrArg World.state step.1
  | gitDiff => exact congrArg World.state step
  | _ => exact (system_aside _ (by trivial) step).state

theorem forall_cons {p : Moment interface World → Prop}
    {moment : Moment interface World} (now : p moment)
    (before : ∀ other ∈ past, p other) : ∀ other ∈ moment :: past, p other :=
  List.forall_mem_cons.mpr ⟨now, before⟩

theorem exists_later {p : Moment interface World → Prop}
    {moment : Moment interface World} (before : ∃ other ∈ past, p other) :
    ∃ other ∈ moment :: past, p other := by
  rcases before with ⟨other, member, holds⟩
  exact ⟨other, List.mem_cons_of_mem _ member, holds⟩

/-- Nothing but a new state changes where the run stands. -/
theorem Standing.cons {moment : Moment interface World}
    (standing : Standing found past world) (nothing : durable moment = none)
    (same : after.state = world.state) : Standing found (moment :: past) after := by
  cases standing with
  | unattempted none =>
      exact .unattempted (forall_cons (by simp [nothing]) none)
  | pending state origin loaded resolved needed stands only =>
      exact .pending state origin loaded resolved needed (same.trans stands)
        (forall_cons (by simp [nothing]) only)
  | failed state origin holds handled stands recorded only =>
      exact .failed state origin holds handled (same.trans stands)
        (exists_later recorded) (forall_cons (by simp [nothing]) only)
  | succeeded origin recorded only =>
      exact .succeeded origin (exists_later recorded)
        (forall_cons (by simp [nothing]) only)

theorem Awaiting.cons {moment : Moment interface World}
    (awaiting : Awaiting found origin past world) (nothing : durable moment = none)
    (same : after.state = world.state) :
    Awaiting found origin (moment :: past) after := by
  cases awaiting with
  | unattempted none => exact .unattempted (forall_cons nothing none)
  | pending state loaded resolved needed stands only =>
      exact .pending state loaded resolved needed (same.trans stands)
        (forall_cons (by simp [nothing]) only)

abbrev Stands {α : Type} (cfg : Config) (repo : Repository) (found : StateFile)
    (post : Past interface World → World → α → Prop) (attempt : Sh α)
    (past : Past interface World) (world : World) : Prop :=
  Attempt.Guarded ((system cfg repo).restrict fun _ => True)
    (fun past moment => True ∧ Standing found (moment :: past) moment.after) post
    (fun past world _ => Standing found past world) attempt past world

theorem awaiting_keeps : Keeps ((system cfg repo).restrict fun _ => True)
    Operation.stateless
    (fun past moment => True ∧ Standing found (moment :: past) moment.after)
    (Awaiting found origin) := by
  intro past world operation answer after stateless step awaiting
  have next : Awaiting found origin (⟨world, operation, answer, after⟩ :: past) after :=
    awaiting.cons (durable_stateless stateless answer)
      (system_stateless stateless step.1)
  exact ⟨⟨trivial, next.standing⟩, next⟩

theorem standing_keeps : Keeps ((system cfg repo).restrict fun _ => True)
    Operation.stateless
    (fun past moment => True ∧ Standing found (moment :: past) moment.after)
    (Standing found) := by
  intro past world operation answer after stateless step standing
  have next : Standing found (⟨world, operation, answer, after⟩ :: past) after :=
    standing.cons (durable_stateless stateless answer)
      (system_stateless stateless step.1)
  exact ⟨⟨trivial, next⟩, next⟩

theorem awaiting_only (awaiting : Awaiting found origin past world) :
    ∀ moment ∈ past, ∀ other, durable moment = some (.onAttempt other) →
      other = origin := by
  intro moment member other attempted
  cases awaiting with
  | unattempted none =>
      rw [none moment member] at attempted
      cases attempted
  | pending state loaded resolved needed stands only =>
      have same := only moment member _ attempted
      cases same
      rfl

/-- Recording an outcome settles where the run stands. -/
theorem Awaiting.settle {command : StateCommand} {answer : Bool}
    (awaiting : Awaiting found origin past world)
    (final : ∃ now, command = .onSuccess origin now ∨ command = .onFail origin now)
    (step : (system cfg repo).Step world (.stateSet command) answer after) :
    Standing found (⟨world, .stateSet command, answer, after⟩ :: past) after := by
  cases answer with
  | false =>
      obtain rfl : after = world := step
      exact (awaiting.cons rfl rfl).standing
  | true =>
      rcases step with ⟨state, applied, rfl⟩
      rcases final with ⟨now, rfl | rfl⟩
      · apply Standing.succeeded origin
        · exact ⟨_, List.mem_cons_self, now, rfl⟩
        · exact forall_cons (fun other attempted => nomatch attempted)
            (awaiting_only awaiting)
      · cases awaiting with
        | unattempted none =>
            apply Standing.unattempted
            apply forall_cons
            · exact fun other attempted => nomatch attempted
            · intro moment member other
              rw [none moment member]
              exact nofun
        | pending before loaded resolved needed stands only =>
            rw [stands] at applied
            have failed : onFail (onAttempt before origin) origin now = some state :=
              applied
            have seen := onFail_keeps "seen_sha" failed (by decide)
            apply Standing.failed state origin
            · exact held_onFail failed (needsDeploy_strip needed)
            · exact needsDeploy_seen (seen.trans onAttempt_seen)
            · rfl
            · exact ⟨_, List.mem_cons_self, now, rfl⟩
            · apply forall_cons
              · exact fun other attempted => nomatch attempted
              · exact awaiting_only (.pending before loaded resolved needed stands only)

/-- Once the outcome is settled, the rest of the run changes nothing. -/
theorem Stands.last {α : Type} {attempt : Sh α}
    (within : attempt.Within Operation.stateless)
    (standing : Standing found past world) :
    Stands cfg repo found (fun past world _ => Standing found past world) attempt
      past world :=
  within.guarded standing_keeps standing

theorem recordSuccess_stands (awaiting : Awaiting found origin past world) :
    Stands cfg repo found (fun past world _ => Standing found past world)
      (recordSuccess origin) past world := by
  apply Attempt.bind ((stateless_of_aside now_steady).guarded awaiting_keeps awaiting)
  intro past₁ world₁ now awaiting₁
  apply ask_bind.mpr
  intro written after step
  have settled := awaiting₁.settle ⟨now, .inl rfl⟩ step.1
  exact ⟨⟨trivial, settled⟩, settled⟩

theorem recordFail_stands (awaiting : Awaiting found origin past world) :
    Stands cfg repo found (fun past world _ => Standing found past world)
      (recordFail origin) past world := by
  apply Attempt.bind ((stateless_of_aside now_steady).guarded awaiting_keeps awaiting)
  intro past₁ world₁ now awaiting₁
  apply ask_bind.mpr
  intro written after step
  have settled := awaiting₁.settle ⟨now, .inr rfl⟩ step.1
  exact ⟨⟨trivial, settled⟩, settled⟩

theorem rollback_stands {job : Job} {targets : List String} {failed : String}
    (awaiting : Awaiting found job.origin past world) :
    Stands cfg repo found (fun past world _ => Standing found past world)
      (rollback cfg job targets failed) past world := by
  apply Attempt.bind ((checkout_steady _).guarded awaiting_keeps awaiting)
  intro past₁ world₁ _ awaiting₁
  apply Attempt.bind ((stateless_of_aside (notify_steady _ _ _)).guarded
    awaiting_keeps awaiting₁)
  intro past₂ world₂ _ awaiting₂
  have asked : (ask (.rollbackTargets failed targets)).Steady Operation.stateless :=
    ask_steady trivial
  apply Attempt.bind (asked.guarded awaiting_keeps awaiting₂)
  intro past₃ world₃ restore awaiting₃
  apply Attempt.bind ((stateless_of_working (restoreAll_steady _ _)).guarded awaiting_keeps
    awaiting₃)
  intro past₄ world₄ rbFail awaiting₄
  apply Attempt.bind (recordFail_stands awaiting₄)
  intro past₅ world₅ _ standing₅
  apply Stands.last _ standing₅
  apply Attempt.Within.bind (stateless_of_aside (reportRollback_steady _ _)).within
  exact fun _ => finish_stateless false 1

theorem deploy_stands {job : Job} {plan : Plan}
    (awaiting : Awaiting found job.origin past world) :
    Stands cfg repo found (fun past world _ => Standing found past world)
      (deploy cfg job plan) past world := by
  apply Attempt.bind ((stateless_of_aside (log_steady _)).guarded awaiting_keeps
    awaiting)
  intro past₁ world₁ _ awaiting₁
  apply Attempt.bind ((stateless_of_aside (notify_steady _ _ _)).guarded
    awaiting_keeps awaiting₁)
  intro past₂ world₂ _ awaiting₂
  apply Attempt.bind ((stateless_of_working (deployAll_steady _)).guarded awaiting_keeps awaiting₂)
  intro past₃ world₃ failed awaiting₃
  cases failed with
  | some target => exact rollback_stands awaiting₃
  | none =>
      apply Attempt.bind (recordSuccess_stands awaiting₃)
      intro past₄ world₄ _ standing₄
      apply Stands.last _ standing₄
      apply Attempt.Within.bind (stateless_of_aside (log_steady _)).within
      intro _
      apply Attempt.Within.bind (stateless_of_aside (notify_steady _ _ _)).within
      exact fun _ => finish_stateless true 0

theorem adoptOnly_stands {job : Job} {skipped : List String}
    (awaiting : Awaiting found job.origin past world) :
    Stands cfg repo found (fun past world _ => Standing found past world)
      (adoptOnly cfg job skipped) past world := by
  unfold adoptOnly
  split
  · apply Attempt.bind ((stateless_of_aside (log_steady _)).guarded awaiting_keeps
      awaiting)
    intro past₁ world₁ _ awaiting₁
    apply Attempt.bind (recordSuccess_stands awaiting₁)
    intro past₂ world₂ _ standing₂
    apply Stands.last _ standing₂
    apply Attempt.Within.bind (stateless_of_aside (notify_steady _ _ _)).within
    exact fun _ => finish_stateless true 0
  · apply Attempt.bind ((stateless_of_aside (log_steady _)).guarded awaiting_keeps
      awaiting)
    intro past₁ world₁ _ awaiting₁
    apply Attempt.bind (recordSuccess_stands awaiting₁)
    intro past₂ world₂ _ standing₂
    apply Stands.last _ standing₂
    apply Attempt.Within.bind (stateless_of_aside (progress_steady _ _ _)).within
    exact fun _ => finish_stateless true 0

theorem adopt_stands {job : Job} {state : Dict} (idle : ∀ moment ∈ past, durable moment = none)
    (loaded : found.load = some state) (same : world.state = found)
    (resolved : substitute job.origin = job.origin)
    (needed : needsDeploy state job.origin = true) :
    Stands cfg repo found (fun past world _ => Awaiting found job.origin past world)
      (adopt cfg job) past world := by
  have attempted : Stands cfg repo found
      (fun past world _ => Awaiting found job.origin past world)
      (stateSet (.onAttempt job.origin)) past world := by
    apply ask_bind.mpr
    intro written after step
    have awaiting : Awaiting found job.origin
        (⟨world, .stateSet (.onAttempt job.origin), written, after⟩ :: past) after := by
      change Bool at written
      cases written with
      | false => exact .unattempted (forall_cons rfl idle)
      | true =>
          rcases step.1 with ⟨next, applied, rfl⟩
          rw [same, loaded] at applied
          cases applied
          refine .pending state loaded resolved needed rfl (forall_cons ?_ ?_)
          · intro command written
            exact (Option.some.inj written).symm
          · intro moment member command written
            rw [idle moment member] at written
            cases written
    exact ⟨⟨trivial, awaiting.standing⟩, awaiting⟩
  apply Attempt.bind attempted
  intro past₁ world₁ _ awaiting₁
  apply Attempt.bind ((checkout_steady _).guarded awaiting_keeps awaiting₁)
  intro past₂ world₂ _ awaiting₂
  apply Attempt.bind ((stateless_of_aside (progress_steady _ _ _)).guarded
    awaiting_keeps awaiting₂)
  intro past₃ world₃ _ awaiting₃
  have diff : (ask (.gitDiff job.lastGood job.origin)).Steady Operation.stateless :=
    ask_steady trivial
  apply Attempt.bind (diff.guarded awaiting_keeps awaiting₃)
  intro past₄ world₄ changed awaiting₄
  have plan : (ask (.plan (readLines changed))).Steady Operation.stateless :=
    ask_steady trivial
  apply Attempt.bind (plan.guarded awaiting_keeps awaiting₄)
  intro past₅ world₅ targets awaiting₅
  have skipped : (ask (.planSkipped (readLines changed))).Steady Operation.stateless :=
    ask_steady trivial
  apply Attempt.bind (skipped.guarded awaiting_keeps awaiting₅)
  exact fun _ _ _ awaiting₆ => awaiting₆

theorem idle_keeps : Keeps ((system cfg repo).restrict fun _ => True)
    Operation.aside
    (fun past moment => True ∧ Standing found (moment :: past) moment.after)
    (fun past _ => ∀ moment ∈ past, durable moment = none) := by
  intro past world operation answer after aside step idle
  have next : ∀ moment ∈ (⟨world, operation, answer, after⟩ :: past),
      durable moment = none :=
    forall_cons (durable_stateless aside.stateless answer) idle
  refine ⟨⟨trivial, .unattempted ?_⟩, next⟩
  intro moment member origin
  rw [next moment member]
  exact nofun

theorem controller_stands :
    Stands cfg repo world.state (fun past after _ => Standing world.state past after)
      (controller cfg) [] world := by
  have idle : ∀ moment ∈ ([] : Past interface World), durable moment = none := by simp
  apply Attempt.bind (Attempt.mono (gate_guarded idle_keeps idle)
    (fun _ _ _ holds => holds) ?_)
  · intro past₁ world₁ job ⟨⟨idle₁, same₁⟩, gated⟩
    rcases gated.needed with ⟨state, loaded, needed⟩
    rw [same₁.state] at loaded
    have resolved : substitute job.origin = job.origin := by
      rcases gated.resolved with ⟨_, answer, _, _, found⟩
      rw [found, substitute_substitute]
    apply Attempt.bind (adopt_stands idle₁ loaded same₁.state resolved needed)
    intro past₂ world₂ plan awaiting₂
    split
    · exact adoptOnly_stands awaiting₂
    · exact deploy_stands awaiting₂
  · intro past₁ world₁ status ⟨idle₁, _⟩
    apply Standing.unattempted
    intro moment member origin
    rw [idle₁ moment member]
    exact nofun

/-! ## Later runs -/

/-- The moment writes no state, and the metrics it publishes are those of `state`. -/
structure Repeats (state : Dict) (moment : Moment interface World) : Prop where
  idle : durable moment = none
  metrics : ∀ metrics, published moment = some metrics →
    ∃ now runOk, metrics = renderMetrics state now runOk

variable {state : Dict}

theorem repeats_aside {operation : Operation} (aside : operation.aside)
    {answer : Answer operation} (stands : world.state = .document state)
    (step : (system cfg repo).Step world operation answer after) :
    Repeats state ⟨world, operation, answer, after⟩ := by
  refine ⟨durable_stateless aside.stateless answer, ?_⟩
  intro metrics found
  cases operation with
  | writeMetrics now runOk =>
      change Bool at answer
      cases answer with
      | false => cases found
      | true =>
          rcases step with ⟨loaded, load, rfl⟩
          rw [stands] at load
          cases load
          exact ⟨now, runOk, (Option.some.inj found).symm⟩
  | _ => cases found

theorem repeats_keeps {keep : Moment interface World → Prop} :
    Keeps ((system cfg repo).restrict keep) Operation.aside
      (fun _ moment => Repeats state moment ∧ moment.after.state = .document state)
      (fun _ world => world.state = .document state) := by
  intro past world operation answer after aside step stands
  have next : after.state = .document state :=
    (system_aside operation aside step.1).state.trans stands
  exact ⟨⟨repeats_aside aside stands step.1, next⟩, next⟩

/-- While the newest commit counts as handled, no run gets past the gate. -/
theorem gate_repeats (handled : needsDeploy state origin = false)
    (stands : world.state = .document state) :
    Attempt.Guarded ((system cfg repo).restrict (Newest origin))
      (fun _ moment => Repeats state moment ∧ moment.after.state = .document state)
      (fun _ _ _ => False) (fun _ world _ => world.state = .document state) (gate cfg)
      past world := by
  apply Attempt.mono (gate_guarded repeats_keeps stands)
  · rintro past₁ world₁ job ⟨⟨stands₁, _⟩, gated⟩
    have same : job.origin = origin := by
      rcases gated.resolved with ⟨_, answer, _, step, found⟩
      rcases step.2 with newest | nothing
      · exact found.trans newest
      · exact absurd (found.trans nothing) gated.present
    rcases gated.needed with ⟨loaded, load, needed⟩
    rw [stands₁] at load
    cases load
    rw [same, handled] at needed
    cases needed
  · exact fun _ _ _ holds => holds.1

theorem later_repeats (handled : needsDeploy state origin = false)
    (stands : world.state = .document state) {later : List CdRun} {final : World}
    (history : History ((system cfg repo).restrict (Newest origin))
      (fun _ => (controller cfg).run) world later final) :
    ∀ moment ∈ Run.momentsOf later, Repeats state moment := by
  intro moment member
  rcases List.append_of_mem member with ⟨earlier, rest, split⟩
  have each := History.guarded (fun _ world => world.state = .document state)
    (fun _ moment => Repeats state moment) stands ?_ history
  · exact (each.2 earlier moment rest split).1
  · intro _ past world stands
    have guarded : Attempt.Guarded ((system cfg repo).restrict (Newest origin))
        (fun _ moment => Repeats state moment ∧ moment.after.state = .document state)
        (fun _ world _ => world.state = .document state)
        (fun _ world _ => world.state = .document state) (controller cfg) past world :=
      Attempt.bind (gate_repeats handled stands) fun _ _ _ impossible => impossible.elim
    apply Effects.Guarded.post_mono guarded
    intro past world outcome holds
    cases outcome <;> exact holds

/-! ## A run that finds the commit handled -/

theorem welcomes_newest {moment : Moment interface World}
    (welcomes : Welcomes origin moment) : Newest origin moment := by
  rcases moment with ⟨before, operation, answer, after⟩
  cases operation <;> first | exact trivial | exact .inl welcomes

theorem stands_keeps {keep : Moment interface World → Prop} :
    Keeps ((system cfg repo).restrict keep) Operation.aside (fun _ _ => True)
      (fun _ world => world.state = .document state) := by
  intro past world operation answer after aside step stands
  exact ⟨trivial, (system_aside operation aside step.1).state.trans stands⟩

/-- Some run finds the commit handled and reassures. -/
theorem exists_handled_run (cfg : Config) (repo : Repository)
    (handled : needsDeploy state origin = false)
    (present : origin ≠ "") (resolved : substitute origin = origin)
    (stands : world.state = .document state) :
    ∃ run : CdRun, run.before = world ∧
      run.Valid ((system cfg repo).restrict (Newest origin))
        (fun _ => (controller cfg).run) ∧
      ∃ moment ∈ run.moments, Reassures state moment := by
  have ⟨moments, final, result, execution⟩ := Executes.exists_completed
    (host cfg repo (willing origin "")) (welcoming_permitted resolved)
    (controller cfg).run world
  have guarded : Attempt.Guarded ((system cfg repo).restrict (Welcomes origin))
      (fun _ _ => True) (fun past _ _ => ∃ moment ∈ past, Reassures state moment)
      (fun past _ _ => ∃ moment ∈ past, Reassures state moment) (controller cfg) []
      world :=
    Attempt.bind (Attempt.mono
      (gate_welcomed (fun _ welcomes => welcomes) stands_keeps
        (fun _ _ stands => congrArg StateFile.load stands) present stands)
      (fun _ _ _ ended => ended.2.2) fun _ _ _ ended => ended.2)
      fun _ _ _ needed => absurd needed (by simp [handled])
  have reassured : ∃ moment ∈ moments, Reassures state moment := by
    have ended := Effects.Guarded.result guarded execution
    cases result <;> simpa [Attempt.Ends] using ended
  exact ⟨⟨(), world, moments, final, some result⟩, rfl,
    execution.widen fun _ _ _ _ step => ⟨step.1, welcomes_newest step.2⟩, reassured⟩

end

/-! ## The attempt and what follows it -/

section

variable {cfg : Config} {repo : Repository} {attempt : CdRun} {origin : String}

theorem run_stands
    (valid : attempt.Valid (system cfg repo) (fun _ => (controller cfg).run)) :
    Standing attempt.before.state attempt.moments.reverse attempt.after := by
  have execution := Executes.restrict valid fun _ _ => trivial
  have guarded : Effects.Guarded ((system cfg repo).restrict fun _ => True)
      (fun past moment => True ∧
        Standing attempt.before.state (moment :: past) moment.after)
      (fun past world _ => Standing attempt.before.state past world)
      (controller cfg).run [] attempt.before := by
    apply Effects.Guarded.post_mono controller_stands
    intro past world outcome holds
    cases outcome <;> exact holds
  have initially : Standing attempt.before.state [] attempt.before :=
    .unattempted (by simp)
  have final := History.inv_after guarded initially execution
  rwa [List.append_nil] at final

inductive Outcome (origin : String) (attempt : CdRun) : Prop
  | succeeded (done : Succeeded origin attempt)
  | failed (done : Failed origin attempt) (state : Dict) (holds : held state = true)
      (handled : needsDeploy state origin = false)
      (stands : attempt.after.state = .document state)
  | pending (success : ¬Succeeded origin attempt) (failure : ¬Failed origin attempt)
      (state : Dict) (loaded : attempt.before.state.load = some state)
      (resolved : substitute origin = origin) (present : origin ≠ "")
      (stands : attempt.after.state = .document (onAttempt state origin))

theorem run_outcome
    (valid : attempt.Valid (system cfg repo) (fun _ => (controller cfg).run))
    (attempted : Attempted origin attempt) : Outcome origin attempt := by
  rcases attempted with ⟨moment, member, written⟩
  have before : moment ∈ attempt.moments.reverse := List.mem_reverse.mpr member
  cases run_stands valid with
  | unattempted none => exact absurd written (none moment before origin)
  | pending state other loaded resolved needed stands only =>
      have same := only moment before _ written
      cases same
      refine .pending ?_ ?_ state loaded resolved ?_ stands
      · rintro ⟨other, otherMember, now, recorded⟩
        cases only other (List.mem_reverse.mpr otherMember) _ recorded
      · rintro ⟨other, otherMember, now, recorded⟩
        cases only other (List.mem_reverse.mpr otherMember) _ recorded
      · intro empty
        exact needsDeploy_strip needed (by rw [empty]; rfl)
  | failed state other holds handled stands recorded only =>
      cases only moment before _ written
      rcases recorded with ⟨final, finalMember, now, found⟩
      exact .failed ⟨final, List.mem_reverse.mp finalMember, now, found⟩ state holds
        handled stands
  | succeeded other recorded only =>
      cases only moment before _ written
      rcases recorded with ⟨final, finalMember, now, found⟩
      exact .succeeded ⟨final, List.mem_reverse.mp finalMember, now, found⟩

/-- Metrics of a state that is held or rolled back show the commit as not applied. -/
theorem kept_of_reported {state : Dict} {later : List CdRun} {final : World}
    (handled : needsDeploy state origin = false)
    (stands : attempt.after.state = .document state)
    (reported : held state = true ∨ rolledBack state = true)
    (history : History ((system cfg repo).restrict (Newest origin))
      (fun _ => (controller cfg).run) attempt.after later final) :
    KeptInSight origin attempt later := by
  right; right
  intro moment member metrics found
  have repeats := later_repeats handled stands history moment member
  rcases repeats.metrics metrics found with ⟨now, runOk, rfl⟩
  rw [renderMetrics_notApplied]
  exact reported.elim .inl fun rolled => .inr (.inr rolled)

theorem pending_handled {state : Dict} :
    needsDeploy (onAttempt state origin) origin = false :=
  needsDeploy_seen onAttempt_seen

/-- A pending attempt on a state that reports nothing goes out of sight. -/
theorem pending_lost (cfg : Config) (repo : Repository) {state : Dict}
    (success : ¬Succeeded origin attempt)
    (resolved : substitute origin = origin) (present : origin ≠ "")
    (stands : attempt.after.state = .document (onAttempt state origin))
    (free : held state = false) (upright : rolledBack state = false) :
    ∃ later final, History ((system cfg repo).restrict (Newest origin))
      (fun _ => (controller cfg).run) attempt.after later final ∧
        ¬KeptInSight origin attempt later := by
  have ⟨run, continues, runValid, moment, member, now, found⟩ :=
    exists_handled_run cfg repo pending_handled present resolved stands
  have history := History.next .start run continues runValid
  refine ⟨_, _, history, ?_⟩
  rintro (done | ⟨again, againMember, ⟨retry, retryMember, attempted⟩, _⟩ | shown)
  · exact success done
  · have same : again = run := by simpa using againMember
    rw [same] at retryMember
    have repeats := later_repeats pending_handled stands history retry
      (by simpa using retryMember)
    rw [repeats.idle] at attempted
    cases attempted
  · have notApplied := shown moment (by simpa using member) _ found
    simp [free, upright] at notApplied

end

/-- The attempt stays in sight in every later history exactly if its outcome
became durable or the state it found was held or rolled back already. -/
theorem attempt_kept_in_sight {cfg : Config} {repo : Repository} {attempt : CdRun}
    (valid : attempt.Valid (system cfg repo) (fun _ => (controller cfg).run))
    {origin : String} (attempted : Attempted origin attempt) :
    (∀ later final, History ((system cfg repo).restrict (Newest origin))
      (fun _ => (controller cfg).run) attempt.after later final →
        KeptInSight origin attempt later) ↔
      Succeeded origin attempt ∨ Failed origin attempt ∨
        ∃ state, attempt.before.state.load = some state ∧
          (held state = true ∨ rolledBack state = true) := by
  cases run_outcome valid attempted with
  | succeeded done => exact ⟨fun _ => .inl done, fun _ _ _ _ => .inl done⟩
  | failed done state holds handled stands =>
      constructor
      · exact fun _ => .inr (.inl done)
      · exact fun _ later final history =>
          kept_of_reported handled stands (.inl holds) history
  | pending success failure state loaded resolved present stands =>
      constructor
      · intro kept
        by_contra lost
        have reports : ¬(held state = true ∨ rolledBack state = true) :=
          fun reported => lost (.inr (.inr ⟨state, loaded, reported⟩))
        simp only [not_or, Bool.not_eq_true] at reports
        have ⟨later, final, history, hidden⟩ := pending_lost cfg repo success resolved
          present stands reports.1 reports.2
        exact hidden (kept later final history)
      · rintro (done | done | ⟨other, load, reported⟩) later final history
        · exact absurd done success
        · exact absurd done failure
        · cases loaded.symm.trans load
          apply kept_of_reported pending_handled stands _ history
          simpa using reported

/-! ## A run killed after its first target -/

/-- The run from commit `a` to commit `b`, killed when homepage was applied. -/
def crashedRun : CdRun :=
  pilotRun (willing "b" "ansible/roles/homepage/tasks/main.yml\n") (pilotWorld "a") 22

theorem crashedRun_valid :
    crashedRun.Valid (system pilotConfig pilotRepository)
      (fun _ => (controller pilotConfig).run) :=
  pilotRun_valid _ _ _

theorem crashedRun_durable :
    crashedRun.moments.filterMap durable = [.onAttempt "b"] := by
  decide +kernel

theorem crashedRun_attempted : Attempted "b" crashedRun := by
  apply List.mem_filterMap.mp
  rw [crashedRun_durable]
  exact List.mem_singleton_self _

theorem crashedRun_writes {moment : Moment interface World} {command : StateCommand}
    (member : moment ∈ crashedRun.moments) (written : durable moment = some command) :
    command = .onAttempt "b" := by
  have recorded := List.mem_filterMap.mpr ⟨moment, member, written⟩
  rw [crashedRun_durable] at recorded
  exact List.mem_singleton.mp recorded

theorem attempt_kept_in_sight_crashedRun :
    ¬∀ later final, History ((system pilotConfig pilotRepository).restrict (Newest "b"))
      (fun _ => (controller pilotConfig).run) crashedRun.after later final →
        KeptInSight "b" crashedRun later := by
  intro kept
  rcases (attempt_kept_in_sight crashedRun_valid crashedRun_attempted).mp kept with
    ⟨moment, member, now, done⟩ | ⟨moment, member, now, done⟩ | ⟨state, loaded, reported⟩
  · have same := crashedRun_writes member done
    cases same
  · have same := crashedRun_writes member done
    cases same
  · have found : crashedRun.before.state.load = some (onSuccess ∅ "a" 0) := rfl
    rw [found] at loaded
    cases loaded
    have upright : held (onSuccess ∅ "a" 0) = false ∧
        rolledBack (onSuccess ∅ "a" 0) = false := by decide
    simp [upright] at reported

/-- The next run finds the commit handled and says that all is well. -/
def nextRun : CdRun := pilotRun (willing "b" "") crashedRun.after 40

/-- Homepage was deployed by a run that was killed, nothing was completed, and
the next run publishes neither a hold nor a failure. -/
theorem crashed_attempt_lost :
    ∃ attempt : CdRun, ∃ later final,
      attempt.Valid (system pilotConfig pilotRepository)
        (fun _ => (controller pilotConfig).run) ∧
      Attempted "b" attempt ∧
      History ((system pilotConfig pilotRepository).restrict (Newest "b"))
        (fun _ => (controller pilotConfig).run) attempt.after later final ∧
      ¬KeptInSight "b" attempt later := by
  have newest : ∀ moment ∈ nextRun.moments, Newest "b" moment := by
    apply simulate_each
    intro past world operation
    cases operation with
    | revParse => exact .inl (by decide : substitute "b" = "b")
    | _ => trivial
  have nextValid : nextRun.Valid ((system pilotConfig pilotRepository).restrict
      (Newest "b")) (fun _ => (controller pilotConfig).run) :=
    Executes.restrict (pilotRun_valid _ _ _) newest
  refine ⟨crashedRun, [nextRun], nextRun.after, crashedRun_valid, crashedRun_attempted,
    .next .start nextRun rfl nextValid, ?_⟩
  have quiet : nextRun.moments.filterMap durable = [] := by decide +kernel
  have reassuring : (nextRun.moments.filterMap published).any
      (fun metrics => !decide metrics.NotApplied) = true := by decide +kernel
  rintro (⟨moment, member, now, done⟩ | ⟨run, runMember, ⟨moment, member, again⟩, _⟩ |
    shown)
  · have same := crashedRun_writes member done
    cases same
  · have same : run = nextRun := by simpa using runMember
    rw [same] at member
    have recorded := List.mem_filterMap.mpr ⟨moment, member, again⟩
    rw [quiet] at recorded
    cases recorded
  · rcases List.any_eq_true.mp reassuring with ⟨metrics, listed, applied⟩
    rcases List.mem_filterMap.mp listed with ⟨moment, member, found⟩
    have notApplied := shown moment (by simpa using member) metrics found
    simp [notApplied] at applied

end Homelab.Autodeploy
