import Homelab.Autodeploy.Host

/-! # What a recorded success means

A run records `on-success` whenever every planned target answered zero. That
each changed target was really deployed or held depends on what git and the
checkout answered on the way, which the script does not look at.
-/

namespace Homelab.Autodeploy

open Effects Text

/-! ## What a run has done -/

structure Ran where
  stage : Stage
  target : String
  status : Nat
  files : Files

def ansibleRun (moment : Moment interface World) : Option Ran :=
  match moment.operation, moment.answer with
  | .ansible stage target, (status : Nat) =>
      some ⟨stage, target, status, moment.before.checkout.files⟩
  | _, _ => none

/-- The targets that `plan-skipped` reported as held. -/
def heldReport (moment : Moment interface World) : Option (List String) :=
  match moment.operation, moment.answer with
  | .planSkipped _, (text : String) => some (readLines text)
  | _, _ => none

/-- The paths that git listed for the plan. -/
def listing (lastGood origin : String) (moment : Moment interface World) :
    Option (List String) :=
  match moment.operation, moment.answer with
  | .gitDiff before after, (text : String) =>
      if before = lastGood ∧ after = origin then some (readLines text) else none
  | _, _ => none

/-- A file that stands for the target differs between the two commits. -/
def Implied (rules : Rules) (repo : Repository) (lastGood origin target : String) :
    Prop :=
  ∃ path, repo.files lastGood path ≠ repo.files origin path ∧
    pathTarget rules path = some target

/-- Everything was deployed from `origin`, and every implied target was deployed
or reported as held. -/
structure RunSound (rules : Rules) (repo : Repository) (lastGood origin : String)
    (past : Past interface World) : Prop where
  atOrigin : ∀ moment ∈ past, ∀ run, ansibleRun moment = some run →
    run.files = repo.files origin
  accounted : ∀ target, Implied rules repo lastGood origin target →
    (∃ moment ∈ past, ansibleRun moment = some ⟨.apply, target, 0, repo.files origin⟩) ∨
      ∃ moment ∈ past, ∃ targets, heldReport moment = some targets ∧
        target ∈ targets

/-- What git and the checkout have to answer: the reset left the commit's files
if anything is deployed from them, and every implied target is among the listed
paths and has a playbook unless it is held. -/
structure Faithful (cfg : Config) (repo : Repository) (lastGood origin : String)
    (changed : List String) (files : Files) : Prop where
  reset : files = repo.files origin ∨
    ∀ target ∈ planTargets cfg.rules (csv cfg.allowlist) (csv cfg.neverAuto) changed,
      hasPlaybook files target = false
  listed : ∀ target, Implied cfg.rules repo lastGood origin target →
    Listed cfg.rules changed target ∧
      (Managed (csv cfg.allowlist) (csv cfg.neverAuto) target →
        hasPlaybook files target = true)

/-- What a recorded success says, for the paths git listed and the files the
reset left. `known` is the `last_good_sha` the run found, if any. -/
def Recorded (cfg : Config) (repo : Repository) (known origin : String)
    (past : Past interface World) : Prop :=
  ∃ lastGood changed files,
    (known ≠ "" → lastGood = known) ∧
    (∃ moment ∈ past, listing lastGood origin moment = some changed) ∧
    (∃ moment ∈ past, moment.operation = .gitReset origin ∧
      moment.after.checkout.files = files) ∧
    (RunSound cfg.rules repo lastGood origin past ↔
      Faithful cfg repo lastGood origin changed files)

def RecordedWell (cfg : Config) (repo : Repository) (known : String)
    (past : Past interface World) (moment : Moment interface World) : Prop :=
  ∀ origin now, moment.operation = .stateSet (.onSuccess origin now) →
    Recorded cfg repo known origin past

/-! ## The trail of a run -/

structure Silent (past : Past interface World) : Prop where
  ran : ∀ moment ∈ past, ansibleRun moment = none
  held : ∀ moment ∈ past, heldReport moment = none

structure Adopted (origin : String) (files : Files)
    (past : Past interface World) (world : World) : Prop where
  reset : ∃ moment ∈ past, moment.operation = .gitReset origin ∧
    moment.after.checkout.files = files
  files : world.checkout.files = files

/-- The plan is made for the paths in `changed`; of its targets some were tried
and some deployed. -/
structure Trail (cfg : Config) (job : Job) (changed : List String) (files : Files)
    (tried deployed : List String) (past : Past interface World) (world : World) :
    Prop where
  adopted : Adopted job.origin files past world
  listed : ∃ moment ∈ past, listing job.lastGood job.origin moment = some changed
  held : ∀ targets, (∃ moment ∈ past, heldReport moment = some targets) ↔
    targets = planSkipped cfg.rules (csv cfg.allowlist) (csv cfg.neverAuto) changed
  ran : ∀ moment ∈ past, ∀ run, ansibleRun moment = some run →
    run.files = files ∧ run.target ∈ tried ∧ hasPlaybook files run.target = true
  applied : ∀ target ∈ deployed, hasPlaybook files target = true →
    ∃ moment ∈ past, ansibleRun moment = some ⟨.apply, target, 0, files⟩

section

variable {cfg : Config} {repo : Repository} {known : String} {job : Job}
  {changed : List String}
  {files : Files} {tried deployed : List String} {past : Past interface World}
  {world after : World}

theorem aside_silent (world after : World) {operation : Operation}
    (answer : Answer operation) (aside : operation.aside) :
    ansibleRun ⟨world, operation, answer, after⟩ = none ∧
      heldReport ⟨world, operation, answer, after⟩ = none := by
  cases operation <;> first | exact ⟨rfl, rfl⟩ | exact aside.elim

theorem Silent.cons {moment : Moment interface World} (silent : Silent past)
    (noRun : ansibleRun moment = none) (noReport : heldReport moment = none) :
    Silent (moment :: past) := by
  rcases silent with ⟨ran, held⟩
  constructor
  · intro other member
    rcases List.mem_cons.mp member with rfl | member
    · exact noRun
    · exact ran other member
  · intro other member
    rcases List.mem_cons.mp member with rfl | member
    · exact noReport
    · exact held other member

theorem exists_cons {p : Moment interface World → Prop}
    {moment : Moment interface World} (holds : ∃ other ∈ past, p other) :
    ∃ other ∈ moment :: past, p other := by
  rcases holds with ⟨other, member, found⟩
  exact ⟨other, List.mem_cons_of_mem _ member, found⟩

theorem Adopted.cons {operation : Operation} {answer : Answer operation}
    (adopted : Adopted job.origin files past world)
    (same : after.checkout = world.checkout) :
    Adopted job.origin files (⟨world, operation, answer, after⟩ :: past) after :=
  ⟨exists_cons adopted.reset, by rw [same]; exact adopted.files⟩

theorem Trail.cons {operation : Operation} {answer : Answer operation}
    (trail : Trail cfg job changed files tried deployed past world)
    (noRun : ansibleRun ⟨world, operation, answer, after⟩ = none)
    (noReport : heldReport ⟨world, operation, answer, after⟩ = none)
    (same : after.checkout = world.checkout) :
    Trail cfg job changed files tried deployed
      (⟨world, operation, answer, after⟩ :: past) after := by
  rcases trail with ⟨adopted, listed, held, ran, applied⟩
  refine ⟨adopted.cons same, exists_cons listed, ?_, ?_, ?_⟩
  · intro targets
    rw [← held targets]
    simp [noReport]
  · intro moment member run found
    rcases List.mem_cons.mp member with rfl | member
    · rw [noRun] at found
      cases found
    · exact ran moment member run found
  · exact fun target member present => exists_cons (applied target member present)

/-- A trail whose plan is carried out is what a recorded success rests on. -/
theorem Trail.recorded (baseline : known ≠ "" → job.lastGood = known)
    (trail : Trail cfg job changed files
      (planTargets cfg.rules (csv cfg.allowlist) (csv cfg.neverAuto) changed)
      (planTargets cfg.rules (csv cfg.allowlist) (csv cfg.neverAuto) changed)
      past world) : Recorded cfg repo known job.origin past := by
  rcases trail with ⟨adopted, listed, held, ran, applied⟩
  refine ⟨job.lastGood, changed, files, baseline, listed, adopted.reset, ?_, ?_⟩
  · intro sound
    constructor
    · by_cases playbooks : ∀ target ∈ planTargets cfg.rules (csv cfg.allowlist)
          (csv cfg.neverAuto) changed, hasPlaybook files target = false
      · exact .inr playbooks
      · left
        push Not at playbooks
        rcases playbooks with ⟨target, member, present⟩
        rcases applied target member (by simpa using present) with
          ⟨moment, momentMember, found⟩
        exact sound.atOrigin moment momentMember _ found
    · intro target implied
      rcases sound.accounted target implied with
        ⟨moment, member, found⟩ | ⟨moment, member, targets, found, reported⟩
      · have ⟨_, planned, present⟩ := ran moment member _ found
        exact ⟨(mem_planTargets.mp planned).1, fun _ => present⟩
      · rw [(held targets).mp ⟨moment, member, found⟩, mem_planSkipped] at reported
        exact ⟨reported.1, fun managed => absurd managed reported.2⟩
  · intro faithful
    constructor
    · intro moment member run found
      have ⟨from', planned, present⟩ := ran moment member run found
      rcases faithful.reset with same | none
      · rw [from', same]
      · rw [none run.target planned] at present
        cases present
    · intro target implied
      have ⟨listed, playbook⟩ := faithful.listed target implied
      by_cases managed : Managed (csv cfg.allowlist) (csv cfg.neverAuto) target
      · left
        have planned := mem_planTargets.mpr ⟨listed, managed⟩
        rcases faithful.reset with same | none
        · rw [← same]
          exact applied target planned (playbook managed)
        · have missing := none target planned
          rw [playbook managed] at missing
          cases missing
      · right
        have ⟨moment, member, found⟩ := (held _).mpr rfl
        exact ⟨moment, member, _, found, mem_planSkipped.mpr ⟨listed, managed⟩⟩

/-! ## From the gate to the record -/

abbrev Sounds {α : Type} (cfg : Config) (repo : Repository) (known : String)
    (post : Past interface World → World → α → Prop) (attempt : Sh α)
    (past : Past interface World) (world : World) : Prop :=
  Attempt.Guarded ((system cfg repo).restrict fun _ => True) (RecordedWell cfg repo known)
    post (fun _ _ _ => True) attempt past world

theorem recordedWell_aside {operation : Operation} {answer : Answer operation}
    (aside : operation.aside) :
    RecordedWell cfg repo known past ⟨world, operation, answer, after⟩ := by
  intro origin now recording
  cases recording
  cases aside

theorem recordedWell_of_ne {moment : Moment interface World}
    (other : ∀ origin now, moment.operation ≠ .stateSet (.onSuccess origin now)) :
    RecordedWell cfg repo known past moment :=
  fun origin now recording => absurd recording (other origin now)

theorem silent_keeps : Keeps ((system cfg repo).restrict fun _ => True)
    Operation.aside (RecordedWell cfg repo known) fun past _ => Silent past := by
  intro past world operation answer after aside step silent
  have ⟨noRun, noReport⟩ := aside_silent world after answer aside
  exact ⟨recordedWell_aside aside, silent.cons noRun noReport⟩

theorem trail_keeps : Keeps ((system cfg repo).restrict fun _ => True)
    Operation.aside (RecordedWell cfg repo known)
    (Trail cfg job changed files tried deployed) := by
  intro past world operation answer after aside step trail
  have ⟨noRun, noReport⟩ := aside_silent world after answer aside
  exact ⟨recordedWell_aside aside,
    trail.cons noRun noReport (system_aside operation aside step.1).checkout⟩

theorem adopted_keeps : Keeps ((system cfg repo).restrict fun _ => True)
    Operation.aside (RecordedWell cfg repo known)
    (fun past world => Silent past ∧ Adopted job.origin files past world) := by
  intro past world operation answer after aside step ⟨silent, adopted⟩
  have ⟨noRun, noReport⟩ := aside_silent world after answer aside
  exact ⟨recordedWell_aside aside, silent.cons noRun noReport,
    adopted.cons (system_aside operation aside step.1).checkout⟩

/-- Whatever the reset leaves is what the run deploys from. -/
theorem checkout_sounds (silent : Silent past) :
    Sounds cfg repo known
      (fun past world _ => ∃ files, Silent past ∧
        Adopted job.origin files past world)
      (checkout job.origin) past world := by
  apply ask_bind.mpr
  intro reset after step
  refine ⟨recordedWell_of_ne nofun, ?_⟩
  have adopted : Adopted job.origin after.checkout.files
      (⟨world, .gitReset job.origin, reset, after⟩ :: past) after :=
    ⟨⟨_, List.mem_cons_self, rfl, rfl⟩, rfl⟩
  apply Attempt.mono (lfsPull_steady.within.guarded adopted_keeps
    ⟨silent.cons rfl rfl, adopted⟩)
  · exact fun _ _ _ holds => ⟨_, holds⟩
  · exact fun _ _ _ _ => trivial

/-- Adopting a commit leaves a trail on which nothing is deployed yet. -/
theorem adopt_sounds (silent : Silent past) :
    Sounds cfg repo known
      (fun past world plan => ∃ changed files,
        (∀ tried, Trail cfg job changed files tried [] past world) ∧
        plan.targets = planTargets cfg.rules (csv cfg.allowlist)
          (csv cfg.neverAuto) changed)
      (adopt cfg job) past world := by
  have attempted : Sounds cfg repo known (fun past _ _ => Silent past)
      (stateSet (.onAttempt job.origin)) past world := by
    apply ask_bind.mpr
    intro written after step
    have silent₁ : Silent (⟨world, .stateSet (.onAttempt job.origin), written, after⟩ ::
        past) := silent.cons rfl rfl
    exact ⟨recordedWell_of_ne nofun, silent₁⟩
  apply Attempt.bind attempted
  intro past₁ world₁ _ silent₁
  apply Attempt.bind (checkout_sounds silent₁)
  intro past₂ world₂ _ ⟨files, holds₂⟩
  apply aside_bind adopted_keeps (progress_steady _ _ _) holds₂
  intro past₃ world₃ _ ⟨silent₃, adopted₃⟩ _
  apply ask_bind.mpr
  intro diff world₄ step₄
  refine ⟨recordedWell_of_ne nofun, ?_⟩
  obtain rfl : world₄ = world₃ := step₄.1
  apply ask_bind.mpr
  intro plan world₅ step₅
  refine ⟨recordedWell_of_ne nofun, ?_⟩
  rcases step₅.1 with ⟨rfl, planned⟩
  apply ask_bind.mpr
  intro skipped world₆ step₆
  refine ⟨recordedWell_of_ne nofun, ?_⟩
  rcases step₆.1 with ⟨rfl, held⟩
  have single : ∀ file ∈ readLines diff, OneLine file :=
    fun file member => (readLines_each member).2
  refine ⟨readLines diff, files, fun tried =>
    ⟨((adopted₃.cons rfl).cons rfl).cons rfl, ?_, ?_, ?_, ?_⟩, ?_⟩
  · exact ⟨_, List.mem_cons_of_mem _ (List.mem_cons_of_mem _ List.mem_cons_self),
      if_pos ⟨rfl, rfl⟩⟩
  · intro targets
    have read : readLines skipped = planSkipped cfg.rules (csv cfg.allowlist)
        (csv cfg.neverAuto) (readLines diff) :=
      (congrArg readLines held).trans (readLines_planSkipped single)
    rw [← read]
    constructor
    · rintro ⟨moment, member, reported⟩
      rcases List.mem_cons.mp member with rfl | member
      · exact (Option.some.inj reported).symm
      · rcases List.mem_cons.mp member with rfl | member
        · cases reported
        · rcases List.mem_cons.mp member with rfl | member
          · cases reported
          · rw [silent₃.held moment member] at reported
            cases reported
    · rintro rfl
      exact ⟨_, List.mem_cons_self, rfl⟩
  · intro moment member run found
    have none : ansibleRun moment = none := by
      rcases List.mem_cons.mp member with rfl | member
      · rfl
      · rcases List.mem_cons.mp member with rfl | member
        · rfl
        · rcases List.mem_cons.mp member with rfl | member
          · rfl
          · exact silent₃.ran moment member
    rw [none] at found
    cases found
  · exact fun target member => absurd member List.not_mem_nil
  · exact (congrArg readLines planned).trans (readLines_planTargets single)

theorem settled_keeps : Keeps ((system cfg repo).restrict fun _ => True)
    Operation.stateless (RecordedWell cfg repo known) fun _ _ => True := by
  intro past world operation answer after stateless step _
  refine ⟨fun origin now recording => ?_, trivial⟩
  cases recording
  cases stateless

/-- Once the outcome is recorded nothing that follows can spoil it. -/
theorem Sounds.last {α : Type} {attempt : Sh α}
    (within : attempt.Within Operation.stateless) :
    Sounds cfg repo known (fun _ _ _ => True) attempt past world :=
  within.guarded settled_keeps trivial

theorem Sounds.rest {α : Type} {attempt : Sh α}
    (steady : attempt.Steady Operation.stateless) :
    Sounds cfg repo known (fun _ _ _ => True) attempt past world :=
  Sounds.last steady.within

theorem recordSuccess_sounds (baseline : known ≠ "" → job.lastGood = known)
    (trail : Trail cfg job changed files
      (planTargets cfg.rules (csv cfg.allowlist) (csv cfg.neverAuto) changed)
      (planTargets cfg.rules (csv cfg.allowlist) (csv cfg.neverAuto) changed)
      past world) :
    Sounds cfg repo known (fun _ _ _ => True) (recordSuccess job.origin) past world := by
  apply aside_bind trail_keeps now_steady trail
  intro past₁ world₁ now trail₁ _
  apply ask_bind.mpr
  intro written after step
  refine ⟨?_, trivial⟩
  intro origin stamp recording
  cases recording
  exact trail₁.recorded baseline

theorem adoptOnly_sounds {skipped : List String}
    (baseline : known ≠ "" → job.lastGood = known)
    (trail : Trail cfg job changed files
      (planTargets cfg.rules (csv cfg.allowlist) (csv cfg.neverAuto) changed)
      (planTargets cfg.rules (csv cfg.allowlist) (csv cfg.neverAuto) changed)
      past world) :
    Sounds cfg repo known (fun _ _ _ => True) (adoptOnly cfg job skipped) past world := by
  unfold adoptOnly
  split
  · apply aside_bind trail_keeps (log_steady _) trail
    intro past₁ world₁ _ trail₁ _
    apply Attempt.bind (recordSuccess_sounds baseline trail₁)
    intro past₂ world₂ _ _
    apply Attempt.bind (Sounds.rest (stateless_of_aside (notify_steady _ _ _)))
    exact fun _ _ _ _ => Sounds.last (finish_stateless true 0)
  · apply aside_bind trail_keeps (log_steady _) trail
    intro past₁ world₁ _ trail₁ _
    apply Attempt.bind (recordSuccess_sounds baseline trail₁)
    intro past₂ world₂ _ _
    apply Attempt.bind (Sounds.rest (stateless_of_aside (progress_steady _ _ _)))
    exact fun _ _ _ _ => Sounds.last (finish_stateless true 0)

/-- An ansible command on a planned target. -/
theorem Trail.ansible {stage : Stage} {target : String} {status : Nat}
    (trail : Trail cfg job changed files tried deployed past world)
    (member : target ∈ tried)
    (present : hasPlaybook world.checkout.files target = true)
    (same : after.checkout = world.checkout) :
    Trail cfg job changed files tried deployed
      (⟨world, .ansible stage target, status, after⟩ :: past) after := by
  rcases trail with ⟨adopted, listed, held, ran, applied⟩
  refine ⟨adopted.cons same, exists_cons listed, ?_, ?_, ?_⟩
  · intro targets
    rw [← held targets]
    simp [heldReport]
  · intro moment member' run found
    rcases List.mem_cons.mp member' with rfl | member'
    · cases found
      refine ⟨adopted.files, member, ?_⟩
      rw [← adopted.files]
      exact present
    · exact ran moment member' run found
  · exact fun other otherMember found => exists_cons (applied other otherMember found)

theorem Trail.deploy {target : String}
    (trail : Trail cfg job changed files tried deployed past world)
    (applied : hasPlaybook files target = true →
      ∃ moment ∈ past, ansibleRun moment = some ⟨.apply, target, 0, files⟩) :
    Trail cfg job changed files tried (target :: deployed) past world := by
  refine ⟨trail.adopted, trail.listed, trail.held, trail.ran, ?_⟩
  intro other member present
  rcases List.mem_cons.mp member with rfl | member
  · exact applied present
  · exact trail.applied other member present

/-- One more target is tried, and deployed if its status is zero. -/
theorem trail_deploys {target : String} (member : target ∈ tried) :
    Deploys ((system cfg repo).restrict fun _ => True) target (RecordedWell cfg repo known)
      (Trail cfg job changed files tried deployed)
      (Trail cfg job changed files tried (target :: deployed)) where
  aside := trail_keeps
  playbook := by
    intro past world answer after step trail
    refine ⟨recordedWell_of_ne nofun, trail.cons rfl rfl ?_⟩
    exact congrArg World.checkout step.1.1
  ansible := by
    intro past world stage answer after step present trail
    exact ⟨recordedWell_of_ne nofun,
      trail.ansible member present (system_ansible step.1).2.1⟩
  applied := by
    intro past world after step present trail
    apply (trail.ansible member present (system_ansible step.1).2.1).deploy
    intro _
    refine ⟨_, List.mem_cons_self, ?_⟩
    rw [← trail.adopted.files]
    rfl
  absent := by
    intro before past world step _ missing trail
    apply trail.deploy
    intro present
    rw [← trail.adopted.files, missing] at present
    cases present

/-- If the loop gets through its targets, all of them are deployed. -/
theorem deployAll_sounds {targets : List String} (nodup : targets.Nodup)
    (trail : Trail cfg job changed files targets [] past world) :
    Sounds cfg repo known
      (fun past world failed => failed = none →
        Trail cfg job changed files targets targets.reverse past world)
      (deployAll cfg targets) past world := by
  apply Attempt.result_mono (deployAll_guarded (Trail cfg job changed files targets)
    (fun _ => Trail cfg job changed files targets) nodup (by simp)
    (fun _ => trail_keeps) (fun _ _ _ _ holds => holds)
    (fun target member done _ => trail_deploys member) trail)
  rintro past₁ world₁ failed ended rfl
  simpa using ended

/-- A rollback records no success. -/
theorem rollback_sounds {targets : List String} {failed : String} :
    Sounds cfg repo known (fun _ _ _ => True) (rollback cfg job targets failed) past
      world := by
  apply Attempt.bind (Sounds.rest (checkout_steady _))
  intro past₁ world₁ _ _
  apply Attempt.bind (Sounds.rest (stateless_of_aside (notify_steady _ _ _)))
  intro past₂ world₂ _ _
  have asked : (ask (.rollbackTargets failed targets)).Steady Operation.stateless :=
    ask_steady trivial
  apply Attempt.bind (Sounds.rest asked)
  intro past₃ world₃ restore _
  apply Attempt.bind (Sounds.rest (stateless_of_working (restoreAll_steady _ _)))
  intro past₄ world₄ rbFail _
  have recorded : Sounds cfg repo known (fun _ _ _ => True) (recordFail job.origin) past₄
      world₄ := by
    apply Attempt.bind (Sounds.rest (stateless_of_aside now_steady))
    intro past₅ world₅ now _
    apply ask_bind.mpr
    intro written after step
    exact ⟨recordedWell_of_ne nofun, trivial⟩
  apply Attempt.bind recorded
  intro past₆ world₆ _ _
  apply Attempt.bind (Sounds.rest (stateless_of_aside (reportRollback_steady _ _)))
  exact fun _ _ _ _ => Sounds.last (finish_stateless false 1)

theorem deploy_sounds {plan : Plan}
    (baseline : known ≠ "" → job.lastGood = known)
    (planned : plan.targets = planTargets cfg.rules (csv cfg.allowlist)
      (csv cfg.neverAuto) changed)
    (trail : Trail cfg job changed files plan.targets [] past world) :
    Sounds cfg repo known (fun _ _ _ => True) (deploy cfg job plan) past world := by
  apply aside_bind trail_keeps (log_steady _) trail
  intro past₁ world₁ _ trail₁ _
  apply aside_bind trail_keeps (notify_steady _ _ _) trail₁
  intro past₂ world₂ _ trail₂ _
  have nodup : plan.targets.Nodup := planned ▸ nodup_planTargets
  apply Attempt.bind (deployAll_sounds nodup trail₂)
  intro past₃ world₃ failed ended
  cases failed with
  | some target => exact rollback_sounds
  | none =>
      have trail₃ := ended rfl
      have carried : Trail cfg job changed files plan.targets plan.targets past₃
          world₃ := by
        refine ⟨trail₃.adopted, trail₃.listed, trail₃.held, trail₃.ran, ?_⟩
        exact fun target member present =>
          trail₃.applied target (List.mem_reverse.mpr member) present
      rw [planned] at carried
      apply Attempt.bind (recordSuccess_sounds baseline carried)
      intro past₄ world₄ _ _
      apply Attempt.bind (Sounds.rest (stateless_of_aside (log_steady _)))
      intro past₅ world₅ _ _
      apply Attempt.bind (Sounds.rest (stateless_of_aside (notify_steady _ _ _)))
      exact fun _ _ _ _ => Sounds.last (finish_stateless true 0)

theorem controller_sounds :
    Sounds cfg repo world.state.lastGood (fun _ _ _ => True) (controller cfg) []
      world := by
  have silent : Silent [] := ⟨by simp, by simp⟩
  apply Attempt.bind (Attempt.mono (gate_guarded silent_keeps silent)
    (fun _ _ _ holds => holds) fun _ _ _ _ => trivial)
  intro past₁ world₁ job ⟨⟨silent₁, same₁⟩, gated⟩
  have baseline := gated.baseline.recorded
  rw [same₁.state] at baseline
  apply Attempt.bind (adopt_sounds silent₁)
  intro past₂ world₂ plan ⟨changed, files, trail, planned⟩
  by_cases empty : plan.targets = []
  · rw [if_pos empty]
    have carried := trail []
    rw [empty] at planned
    rw [planned] at carried
    exact adoptOnly_sounds baseline carried
  · rw [if_neg empty]
    exact deploy_sounds baseline planned (trail _)

end

/-- Whenever a run records success for a commit, everything was deployed from
that commit and every implied target was deployed or reported as held, exactly
if git and the checkout answered faithfully. -/
theorem recorded_success_sound {cfg : Config} {repo : Repository} {initial final : World}
    {moments : List (Moment interface World)} {outcome : Option (Except Nat Unit)}
    (execution : Executes (system cfg repo) (controller cfg).run initial moments final
      outcome)
    {earlier later : List (Moment interface World)} {moment : Moment interface World}
    (split : moments = earlier ++ moment :: later) {origin : String} {now : Int}
    (recording : moment.operation = .stateSet (.onSuccess origin now)) :
    Recorded cfg repo initial.state.lastGood origin earlier.reverse := by
  have narrow := execution.restrict fun _ _ => trivial
  have good := controller_sounds.moment_good narrow split
  rw [List.append_nil] at good
  exact good origin now recording

/-! ## A commit that git does not diff -/

def successes (moments : List (Moment interface World)) : List (String × Int) :=
  moments.filterMap fun moment =>
    match moment.operation with
    | .stateSet (.onSuccess origin now) => some (origin, now)
    | _ => none

theorem exists_success {moments : List (Moment interface World)} {origin : String}
    {now : Int} (recorded : (origin, now) ∈ successes moments) :
    ∃ earlier moment later, moments = earlier ++ moment :: later ∧
      moment.operation = .stateSet (.onSuccess origin now) := by
  rcases List.mem_filterMap.mp recorded with ⟨moment, member, found⟩
  rcases List.append_of_mem member with ⟨earlier, later, split⟩
  refine ⟨earlier, moment, later, split, ?_⟩
  split at found
  · rename_i recording
    cases found
    exact recording
  · cases found

theorem recorded_success_sound_pilot :
    ∃ earlier, Recorded pilotConfig pilotRepository "a" "b" earlier := by
  have execution := pilotRun_valid (willing "b" "") (pilotWorld "a") 40
  have recorded : ("b", 0) ∈ successes (pilotRun (willing "b" "") (pilotWorld "a") 40).moments := by
    decide +kernel
  rcases exists_success recorded with ⟨earlier, moment, later, split, recording⟩
  have sound := recorded_success_sound execution split recording
  exact ⟨earlier.reverse, sound⟩

/-- A run that went through no ansible command and reported nothing. -/
def untouched (moments : List (Moment interface World)) : Bool :=
  moments.all fun moment =>
    (ansibleRun moment).isNone && (heldReport moment).all List.isEmpty

theorem unsound_of_untouched {rules : Rules} {repo : Repository}
    {lastGood origin target : String} {earlier later : List (Moment interface World)}
    (idle : untouched (earlier ++ later) = true)
    (implied : Implied rules repo lastGood origin target) :
    ¬RunSound rules repo lastGood origin earlier.reverse := by
  intro sound
  have each : ∀ moment ∈ earlier.reverse, ansibleRun moment = none ∧
      ∀ targets, heldReport moment = some targets → targets = [] := by
    intro moment member
    have here := List.all_eq_true.mp idle moment (by simp_all)
    rw [Bool.and_eq_true, Option.isNone_iff_eq_none] at here
    refine ⟨here.1, fun targets held => ?_⟩
    have empty := here.2
    rw [held] at empty
    exact List.isEmpty_iff.mp empty
  rcases sound.accounted target implied with
    ⟨moment, member, ran⟩ | ⟨moment, member, targets, held, reported⟩
  · rw [(each moment member).1] at ran
    cases ran
  · rw [(each moment member).2 targets held] at reported
    cases reported

/-- `git diff` fails and prints nothing: the changed target is neither deployed
nor reported, and success is recorded. -/
theorem silent_diff_unsound :
    ∃ moments final outcome,
      Executes (system pilotConfig pilotRepository) (controller pilotConfig).run
        (pilotWorld "a") moments final outcome ∧
      (pilotWorld "a").state.lastGood = "a" ∧
      ∃ earlier moment later, moments = earlier ++ moment :: later ∧
        moment.operation = .stateSet (.onSuccess "b" 0) ∧
        ¬RunSound pilotConfig.rules pilotRepository "a" "b" earlier.reverse := by
  have execution := pilotRun_valid (willing "b" "") (pilotWorld "a") 40
  have recorded : ("b", 0) ∈ successes (pilotRun (willing "b" "") (pilotWorld "a") 40).moments := by
    decide +kernel
  have idle : untouched (pilotRun (willing "b" "") (pilotWorld "a") 40).moments = true := by
    decide +kernel
  have implied : Implied pilotConfig.rules pilotRepository "a" "b" "homepage" :=
    ⟨"ansible/roles/homepage/tasks/main.yml", by decide, by decide⟩
  rcases exists_success recorded with ⟨earlier, moment, later, split, recording⟩
  refine ⟨_, _, _, execution, by decide, earlier, moment, later, split, recording, ?_⟩
  rw [split] at idle
  exact unsound_of_untouched idle implied

end Homelab.Autodeploy
