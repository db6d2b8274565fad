import Homelab.Autodeploy.Controller
import Homelab.Effects.Within

/-! # What the gate lets through

Everything around the deploy itself only reads, reports and publishes metrics.
The gate returns a job only for a commit that needs a deploy, together with the
baseline of its plan.
-/

namespace Homelab.Autodeploy

open Effects Text

/-! ## Operations beside the deploy -/

/-- Neither the state file, the checkout nor any target is involved. -/
def Operation.aside : Operation → Prop
  | .stateSet _ => False
  | .gitReset _ => False
  | .gitDiff _ _ => False
  | .plan _ => False
  | .planSkipped _ => False
  | .rollbackTargets _ _ => False
  | .playbook _ => False
  | .ansible _ _ => False
  | _ => True

/-- What tells the operator, and nothing else. -/
def Operation.reporting : Operation → Prop
  | .log _ => True
  | .notify _ _ _ => True
  | _ => False

theorem Operation.reporting.aside {operation : Operation}
    (reporting : operation.reporting) : operation.aside := by
  cases operation <;> trivial

structure Same (before after : World) : Prop where
  state : after.state = before.state
  checkout : after.checkout = before.checkout
  runtime : after.runtime = before.runtime

theorem Same.refl (world : World) : Same world world := ⟨rfl, rfl, rfl⟩

theorem Same.trans {first second third : World} (earlier : Same first second)
    (later : Same second third) : Same first third :=
  ⟨later.state.trans earlier.state, later.checkout.trans earlier.checkout,
    later.runtime.trans earlier.runtime⟩

theorem Same.of_eq {before after : World} (equal : after = before) :
    Same before after := by
  rw [equal]
  exact .refl _

variable {cfg : Config} {repo : Repository}

theorem system_aside {world after : World} (operation : Operation)
    {answer : Answer operation} (aside : operation.aside)
    (step : (system cfg repo).Step world operation answer after) :
    Same world after := by
  cases operation with
  | lastGood => exact .of_eq step.1
  | needsDeploy sha => exact .of_eq step.1
  | writeMetrics now runOk =>
      change Bool at answer
      cases answer with
      | false => exact .of_eq step
      | true =>
          rcases step with ⟨state, _, rfl⟩
          exact ⟨rfl, rfl, rfl⟩
  | stateSet => cases aside
  | gitReset => cases aside
  | gitDiff => cases aside
  | plan => cases aside
  | planSkipped => cases aside
  | rollbackTargets => cases aside
  | playbook => cases aside
  | ansible => cases aside
  | _ => exact .of_eq step

theorem ask_steady {allowed : Operation → Prop} {operation : Operation}
    (permitted : allowed operation) : (ask operation).Steady allowed :=
  Attempt.steady_lift ⟨permitted, fun _ => trivial⟩

theorem ask_within {allowed : Operation → Prop} {operation : Operation}
    (permitted : allowed operation) : (ask operation).Within allowed :=
  (ask_steady permitted).within

section Within

theorem now_steady : (ask .now).Steady Operation.aside := ask_steady trivial

theorem log_reporting (message : Message) : (log message).Steady Operation.reporting :=
  ask_steady trivial

theorem notify_reporting (message : Message) (priority tags : String) :
    (notify cfg message priority tags).Steady Operation.reporting := by
  unfold notify
  split
  · exact Attempt.steady_pure ()
  · exact ask_steady trivial

theorem progress_reporting (message : Message) (priority tags : String) :
    (progress cfg message priority tags).Steady Operation.reporting := by
  apply Attempt.Steady.bind (log_reporting _)
  intro _
  split
  · exact notify_reporting message priority tags
  · exact Attempt.steady_pure ()

theorem log_steady (message : Message) : (log message).Steady Operation.aside :=
  (log_reporting message).mono fun _ reporting => reporting.aside

theorem notify_steady (message : Message) (priority tags : String) :
    (notify cfg message priority tags).Steady Operation.aside :=
  (notify_reporting message priority tags).mono fun _ reporting => reporting.aside

theorem progress_steady (message : Message) (priority tags : String) :
    (progress cfg message priority tags).Steady Operation.aside :=
  (progress_reporting message priority tags).mono fun _ reporting => reporting.aside

theorem emitMetrics_steady (runOk : Bool) :
    (emitMetrics runOk).Steady Operation.aside := by
  apply Attempt.Steady.bind (ask_steady trivial)
  intro present
  split
  · apply Attempt.Steady.bind (ask_steady trivial)
    intro now
    apply Attempt.Steady.bind (ask_steady trivial)
    intro _
    exact Attempt.steady_pure ()
  · exact Attempt.steady_pure ()

theorem finish_within {α : Type} (runOk : Bool) (status : Nat) :
    (finish runOk status : Sh α).Within Operation.aside :=
  (emitMetrics_steady runOk).within.bind fun _ => Attempt.within_throw status

theorem lfsPull_steady : lfsPull.Steady Operation.aside := by
  apply Attempt.Steady.bind (ask_steady trivial)
  intro lfs
  change Lfs at lfs
  cases lfs with
  | absent => exact log_steady _
  | failed => exact log_steady _
  | pulled => exact Attempt.steady_pure ()

theorem denylistDrift_steady (target : String) (changed : List String) :
    (denylistDrift target changed).Steady Operation.aside := by
  unfold denylistDrift
  split
  · exact Attempt.steady_pure false
  · exact ask_steady trivial

theorem driftSamples_steady (origin : String) (targets : List String) :
    (driftSamples origin targets).Steady Operation.aside := by
  induction targets with
  | nil => exact Attempt.steady_pure []
  | cons target rest induction =>
      apply Attempt.Steady.bind (ask_steady trivial)
      intro marker
      dsimp only
      split
      · exact induction
      · apply Attempt.Steady.bind (ask_steady trivial)
        intro diff
        apply Attempt.Steady.bind (denylistDrift_steady target _)
        intro drift
        apply Attempt.Steady.bind induction
        intro samples
        exact Attempt.steady_pure _

theorem driftWatch_steady (origin : String) :
    (driftWatch cfg origin).Steady Operation.aside := by
  unfold driftWatch
  generalize cfg.neverAutoArr = targets
  apply Attempt.Steady.bind (ask_steady trivial)
  intro present
  split
  · split
    · exact Attempt.steady_pure ()
    · apply Attempt.Steady.bind (driftSamples_steady origin _)
      intro samples
      apply Attempt.Steady.bind (ask_steady trivial)
      intro _
      exact Attempt.steady_pure ()
  · exact Attempt.steady_pure ()

theorem readLastGood_steady : readLastGood.Steady Operation.aside := by
  apply Attempt.Steady.bind (ask_steady trivial)
  intro lastGood
  dsimp only
  split
  · apply Attempt.Steady.bind (ask_steady trivial)
    intro head
    exact Attempt.steady_pure _
  · exact Attempt.steady_pure _

theorem ciGate_within (origin : String) :
    (ciGate cfg origin).Within Operation.aside := by
  unfold ciGate
  split
  · exact Attempt.within_pure ()
  · apply Attempt.Within.bind (ask_within trivial)
    intro conclusion
    dsimp only
    generalize ciPassed (substitute conclusion) = passed
    cases passed with
    | true => exact (progress_steady _ _ _).within
    | false =>
      apply Attempt.Within.bind (log_steady _).within
      intro _
      apply Attempt.Within.bind (notify_steady _ _ _).within
      intro _
      exact finish_within true 0

theorem gate_within : (gate cfg).Within Operation.aside := by
  have stops (message : Message) (runOk : Bool) (status : Nat) :
      (do log message; finish runOk status : Sh Job).Within Operation.aside :=
    (log_steady message).within.bind fun _ => finish_within runOk status
  apply Attempt.Within.bind (ask_within trivial)
  intro locked
  split
  · apply Attempt.Within.bind (ask_within trivial)
    intro entered
    split
    · apply Attempt.Within.bind (ask_within trivial)
      intro fetched
      split
      · apply Attempt.Within.bind (ask_within trivial)
        intro tag
        dsimp only
        split
        · exact stops _ true 0
        · apply Attempt.Within.bind (ask_within trivial)
          intro origin
          apply Attempt.Within.bind readLastGood_steady.within
          intro lastGood
          split
          · exact stops _ false 0
          · apply Attempt.Within.bind (driftWatch_steady _).within
            intro _
            apply Attempt.Within.bind (ask_within trivial)
            intro needed
            split
            · apply Attempt.Within.bind (progress_steady _ _ _).within
              intro _
              apply Attempt.Within.bind (ciGate_within _)
              exact fun _ => Attempt.within_pure _
            · exact stops _ true 0
      · exact stops _ false 0
    · exact stops _ false 1
  · apply Attempt.Within.bind (log_steady _).within
    exact fun _ => Attempt.within_throw 0

end Within

/-! ## The job -/

/-- `lastGood` is the recorded commit, or what `git rev-parse HEAD` answered
while there is none. -/
structure Baseline (system : System interface World) (world : World)
    (lastGood : String) : Prop where
  recorded : world.state.lastGood ≠ "" → lastGood = world.state.lastGood
  unrecorded : world.state.lastGood = "" → ∃ before answer after,
    system.Step before .headSha answer after ∧
      before.checkout = world.checkout ∧ lastGood = substitute answer

/-- What is known when the gate returns `job` in `world`. -/
structure Gated (system : System interface World) (world : World) (job : Job) :
    Prop where
  present : job.origin ≠ ""
  resolved : ∃ before answer after,
    system.Step before (.revParse job.tag) answer after ∧
      job.origin = substitute answer
  needed : ∃ state, world.state.load = some state ∧
    needsDeploy state job.origin = true
  baseline : Baseline system world job.lastGood

section Gate

variable {system' : System interface World}
  {good : Past interface World → Moment interface World → Prop}
  {inv : Past interface World → World → Prop} {α β : Type}
  {past : Past interface World} {world start : World}

theorem ask_bind {operation : Operation} {next : Answer operation → Sh β}
    {post : Past interface World → World → β → Prop}
    {failed : Past interface World → World → Nat → Prop} :
    Attempt.Guarded system' good post failed (ask operation >>= next) past world ↔
      ∀ answer after, system'.Step world operation answer after →
        good past ⟨world, operation, answer, after⟩ ∧
          Attempt.Guarded system' good post failed (next answer)
            (⟨world, operation, answer, after⟩ :: past) after := by
  rw [Attempt.bind_iff, ask, Attempt.lift_iff]
  exact Iff.rfl

/-- `finish` publishes and does not come back. -/
theorem finish_guarded {post : Past interface World → World → α → Prop}
    {runOk : Bool} {status : Nat}
    (keeps : Keeps system' Operation.aside good inv) (holds : inv past world) :
    Attempt.Guarded system' good post (fun past world _ => inv past world)
      (finish runOk status) past world :=
  Attempt.bind ((emitMetrics_steady runOk).within.guarded keeps holds)
    fun _ _ _ holds => holds

theorem keeps_same {keep : Moment interface World → Prop} (start : World)
    (keeps : Keeps ((system cfg repo).restrict keep) Operation.aside good inv) :
    Keeps ((system cfg repo).restrict keep) Operation.aside good
      (fun past world => inv past world ∧ Same start world) := by
  intro past world operation answer after aside step holds
  have ⟨now, next⟩ := keeps past world operation answer after aside step holds.1
  exact ⟨now, next, holds.2.trans (system_aside operation aside step.1)⟩

/-- Sequencing after a part of the script that is beside the deploy. -/
theorem aside_bind {keep : Moment interface World → Prop}
    {attempt : Sh α} {rest : α → Sh β}
    {post : Past interface World → World → β → Prop}
    {failed : Past interface World → World → Nat → Prop}
    (keeps : Keeps ((system cfg repo).restrict keep) Operation.aside good inv)
    (steady : attempt.Steady Operation.aside) (holds : inv past world)
    (next : ∀ past after result, inv past after → Same world after →
      Attempt.Guarded ((system cfg repo).restrict keep) good post failed
        (rest result) past after) :
    Attempt.Guarded ((system cfg repo).restrict keep) good post failed
      (attempt >>= rest) past world := by
  apply Attempt.bind (steady.guarded (keeps_same world keeps) ⟨holds, .refl _⟩)
  exact fun past after result holds => next past after result holds.1 holds.2

/-- The same for a part that may end the run. -/
theorem aside_bind_or_end {keep : Moment interface World → Prop}
    {attempt : Sh α} {rest : α → Sh β}
    {post : Past interface World → World → β → Prop}
    {failed : Past interface World → World → Nat → Prop}
    (keeps : Keeps ((system cfg repo).restrict keep) Operation.aside good inv)
    (within : attempt.Within Operation.aside) (holds : inv past world)
    (ended : ∀ past after status, inv past after → failed past after status)
    (next : ∀ past after result, inv past after → Same world after →
      Attempt.Guarded ((system cfg repo).restrict keep) good post failed
        (rest result) past after) :
    Attempt.Guarded ((system cfg repo).restrict keep) good post failed
      (attempt >>= rest) past world := by
  apply Attempt.bind (Attempt.mono
    (within.guarded (keeps_same world keeps) ⟨holds, .refl _⟩)
    (fun _ _ _ holds => holds) fun past after status holds =>
      ended past after status holds.1)
  exact fun past after result holds => next past after result holds.1 holds.2

theorem Baseline.same {system' : System interface World} {lastGood : String}
    (baseline : Baseline system' start lastGood) (same : Same start world) :
    Baseline system' world lastGood := by
  rcases baseline with ⟨recorded, unrecorded⟩
  constructor
  · rw [same.state]
    exact recorded
  · rw [same.state, same.checkout]
    exact unrecorded

variable {keep : Moment interface World → Prop}

theorem readLastGood_guarded
    (keeps : Keeps ((system cfg repo).restrict keep) Operation.aside good inv)
    (holds : inv past world) :
    Attempt.Guarded ((system cfg repo).restrict keep) good
      (fun past after lastGood => inv past after ∧ Same world after ∧
        Baseline ((system cfg repo).restrict keep) after lastGood)
      (fun past after _ => inv past after) readLastGood past world := by
  apply ask_bind.mpr
  intro answer after step
  have ⟨now, inv₁⟩ := keeps past world .lastGood answer after trivial step holds
  refine ⟨now, ?_⟩
  rcases step with ⟨⟨rfl, read⟩, _⟩
  have found : substitute answer = after.state.lastGood := by
    rw [read, substitute_lastGood]
  dsimp only
  rw [found]
  rcases eq_or_ne after.state.lastGood "" with recorded | recorded
  · rw [if_pos recorded]
    apply ask_bind.mpr
    intro head later step
    have ⟨now, inv₂⟩ := keeps _ after .headSha head later trivial step inv₁
    have same : Same after later := system_aside .headSha trivial step.1
    refine ⟨now, inv₂, same, ?_⟩
    apply Baseline.same _ same
    exact ⟨fun impossible => absurd recorded impossible,
      fun _ => ⟨after, head, later, step, rfl, rfl⟩⟩
  · rw [if_neg recorded]
    exact ⟨inv₁, .refl _, fun _ => rfl, fun impossible => absurd impossible recorded⟩

/-- The gate leaves everything alone, and lets only a commit through that needs
a deploy. -/
theorem gate_guarded
    (keeps : Keeps ((system cfg repo).restrict keep) Operation.aside good inv)
    (holds : inv past world) :
    Attempt.Guarded ((system cfg repo).restrict keep) good
      (fun past after job => (inv past after ∧ Same world after) ∧
        Gated ((system cfg repo).restrict keep) after job)
      (fun past after _ => inv past after ∧ Same world after) (gate cfg) past
      world := by
  have all := keeps_same world keeps
  apply ask_bind.mpr
  intro locked world₁ step₁
  have ⟨now₁, inv₁⟩ := all past world .flock locked world₁ trivial step₁
    ⟨holds, .refl _⟩
  refine ⟨now₁, ?_⟩
  change Bool at locked
  cases locked with
  | false => exact aside_bind all (log_steady _) inv₁ fun _ _ _ holds _ => holds
  | true =>
  apply ask_bind.mpr
  intro entered world₂ step₂
  have ⟨now₂, inv₂⟩ := all _ world₁ .cdRepo entered world₂ trivial step₂ inv₁
  refine ⟨now₂, ?_⟩
  change Bool at entered
  cases entered with
  | false => exact aside_bind all (log_steady _) inv₂ fun _ _ _ holds _ =>
      finish_guarded all holds
  | true =>
  apply ask_bind.mpr
  intro fetched world₃ step₃
  have ⟨now₃, inv₃⟩ := all _ world₂ .gitFetch fetched world₃ trivial step₃ inv₂
  refine ⟨now₃, ?_⟩
  change Bool at fetched
  cases fetched with
  | false => exact aside_bind all (log_steady _) inv₃ fun _ _ _ holds _ =>
      finish_guarded all holds
  | true =>
  apply ask_bind.mpr
  intro tag world₄ step₄
  have ⟨now₄, inv₄⟩ := all _ world₃ .newestTag tag world₄ trivial step₄ inv₃
  refine ⟨now₄, ?_⟩
  dsimp only
  rcases eq_or_ne (substitute tag) "" with untagged | untagged
  · rw [if_pos untagged]
    exact aside_bind all (log_steady _) inv₄ fun _ _ _ holds _ =>
      finish_guarded all holds
  rw [if_neg untagged]
  apply ask_bind.mpr
  intro rev world₅ step₅
  have ⟨now₅, inv₅⟩ := all _ world₄ (.revParse (substitute tag)) rev world₅ trivial
    step₅ inv₄
  refine ⟨now₅, ?_⟩
  apply Attempt.bind (readLastGood_guarded all inv₅)
  intro past₆ world₆ lastGood ⟨inv₆, _, baseline₆⟩
  rcases eq_or_ne (substitute rev) "" with unresolved | unresolved
  · rw [if_pos unresolved]
    exact aside_bind all (log_steady _) inv₆ fun _ _ _ holds _ =>
      finish_guarded all holds
  rw [if_neg unresolved]
  apply aside_bind all (driftWatch_steady (substitute rev)) inv₆
  intro past₇ world₇ _ inv₇ same₇
  apply ask_bind.mpr
  intro needed world₈ step₈
  have ⟨now₈, inv₈⟩ := all _ world₇ (.needsDeploy (substitute rev)) needed world₈
    trivial step₈ inv₇
  refine ⟨now₈, ?_⟩
  have same₈ : Same world₆ world₈ := same₇.trans
    (system_aside (.needsDeploy _) trivial step₈.1)
  have answered := step₈.1.2
  change Bool at needed
  cases needed with
  | false => exact aside_bind all (log_steady _) inv₈ fun _ _ _ holds _ =>
      finish_guarded all holds
  | true =>
  have due : ∃ state, world₈.state.load = some state ∧
      needsDeploy state (substitute rev) = true := by
    rw [step₈.1.1]
    cases loaded : world₇.state.load with
    | none => simp [loaded] at answered
    | some state =>
        simp only [loaded] at answered
        exact ⟨state, rfl, answered.symm⟩
  apply aside_bind all (progress_steady _ _ _) inv₈
  intro past₉ world₉ _ inv₉ same₉
  apply aside_bind_or_end all (ciGate_within _) inv₉ fun _ _ _ holds => holds
  intro past' world' _ inv' same'
  have same : Same world₈ world' := same₉.trans same'
  refine ⟨inv', unresolved, ⟨world₄, rev, world₅, step₅, rfl⟩, ?_, ?_⟩
  · rw [same.state]
    exact due
  · exact baseline₆.same (same₈.trans same)

end Gate

end Homelab.Autodeploy
