import Homelab.Autodeploy.Host

/-! # A run on a host where nothing is in the way

What makes sure that some run gets to the end: the host is up, git answers, and
the metrics directory is writable.
-/

namespace Homelab.Autodeploy

open Effects Text

/-! ## What a moment leaves -/

def durable (moment : Moment interface World) : Option StateCommand :=
  match moment.operation, moment.answer with
  | .stateSet command, (true : Bool) => some command
  | _, _ => none

def published (moment : Moment interface World) : Option Metrics :=
  match moment.operation, moment.answer with
  | .writeMetrics _ _, (true : Bool) => moment.after.metrics
  | _, _ => none

/-- The host is up, the newest tag is at `origin`, and its CI is green. -/
def Welcomes (origin : String) (moment : Moment interface World) : Prop :=
  match moment.operation, moment.answer with
  | .flock, (answer : Bool) => answer = true
  | .cdRepo, (answer : Bool) => answer = true
  | .gitFetch, (answer : Bool) => answer = true
  | .newestTag, (tag : String) => substitute tag ≠ ""
  | .revParse _, (text : String) => substitute text = origin
  | .ciConclusion _, (text : String) => ciPassed (substitute text) = true
  | .textfileDir, (answer : Bool) => answer = true
  | .writeMetrics _ _, (answer : Bool) =>
      moment.before.state.load ≠ none → answer = true
  | _, _ => True

/-- The metrics of `state` are published by a run that went well. -/
def Reassures (state : Dict) (moment : Moment interface World) : Prop :=
  ∃ now, published moment = some (renderMetrics state now true)

section

variable {cfg : Config} {repo : Repository} {origin : String} {state : Dict}
  {keep : Moment interface World → Prop} {past : Past interface World} {world : World}

theorem host_welcomes {diff : String} (resolved : substitute origin = origin)
    (past : Past interface World) (world : World) (operation : Operation) :
    Welcomes origin ⟨world, operation,
      (host cfg repo (willing origin diff) past world operation).1,
      (host cfg repo (willing origin diff) past world operation).2⟩ := by
  cases operation with
  | newestTag => exact (by decide : substitute "deploy-v1" ≠ "")
  | revParse => exact resolved
  | ciConclusion => exact (by decide : ciPassed (substitute "success") = true)
  | writeMetrics now runOk =>
      intro loaded
      cases load : world.state.load with
      | none => exact absurd load loaded
      | some state => simp [host, World.reply, load, willing]
  | flock | cdRepo | gitFetch | textfileDir => exact rfl
  | _ => exact trivial

theorem welcoming_permitted (resolved : substitute origin = origin) :
    Permitted ((system cfg repo).restrict (Welcomes origin))
      (host cfg repo (willing origin "")) :=
  (host_permitted _).restrict (host_welcomes resolved)

theorem finish_reassures (welcomes : ∀ moment, keep moment → Welcomes origin moment)
    (loaded : world.state.load = some state) :
    Attempt.Guarded ((system cfg repo).restrict keep) (fun _ _ => True)
      (fun _ _ _ => False) (fun past _ _ => ∃ moment ∈ past, Reassures state moment)
      (finish true 0 : Sh Job) past world := by
  have published : Attempt.Guarded ((system cfg repo).restrict keep)
      (fun _ _ => True) (fun past _ _ => ∃ moment ∈ past, Reassures state moment)
      (fun past _ _ => ∃ moment ∈ past, Reassures state moment) (emitMetrics true)
      past world := by
    apply ask_bind.mpr
    intro present world₁ step₁
    refine ⟨trivial, ?_⟩
    have same : world₁ = world := step₁.1
    have welcome : present = true := welcomes _ step₁.2
    subst same welcome
    apply ask_bind.mpr
    intro now world₂ step₂
    refine ⟨trivial, ?_⟩
    have same : world₂ = world₁ := step₂.1
    subst same
    apply ask_bind.mpr
    intro written world₃ step₃
    refine ⟨trivial, ?_⟩
    have welcome : written = true := welcomes _ step₃.2 (by simp [loaded])
    subst welcome
    rcases step₃.1 with ⟨other, load, rfl⟩
    rw [loaded] at load
    cases load
    exact ⟨_, List.mem_cons_self, now, rfl⟩
  exact Attempt.bind published fun _ _ _ holds => holds

theorem ciGate_welcomed {inv : Past interface World → World → Prop}
    {failed : Past interface World → World → Nat → Prop}
    (welcomes : ∀ moment, keep moment → Welcomes origin moment)
    (keeps : Keeps ((system cfg repo).restrict keep) Operation.aside (fun _ _ => True)
      inv) (holds : inv past world) :
    Attempt.Guarded ((system cfg repo).restrict keep) (fun _ _ => True)
      (fun past world _ => inv past world) failed (ciGate cfg origin) past world := by
  unfold ciGate
  split
  · exact holds
  · apply ask_bind.mpr
    intro conclusion world₁ step₁
    have ⟨_, holds₁⟩ := keeps past world (.ciConclusion origin) conclusion world₁ trivial
      step₁ holds
    refine ⟨trivial, ?_⟩
    have passed : ciPassed (substitute conclusion) = true := welcomes _ step₁.2
    dsimp only
    rw [if_pos passed]
    exact (progress_steady _ _ _).guarded keeps holds₁

/-- The gate lets the commit through if it needs a deploy; otherwise the run
says that all is well. -/
theorem gate_welcomed {inv : Past interface World → World → Prop}
    (welcomes : ∀ moment, keep moment → Welcomes origin moment)
    (keeps : Keeps ((system cfg repo).restrict keep) Operation.aside (fun _ _ => True)
      inv)
    (loads : ∀ past world, inv past world → world.state.load = some state)
    (present : origin ≠ "") (holds : inv past world) :
    Attempt.Guarded ((system cfg repo).restrict keep) (fun _ _ => True)
      (fun past world job => inv past world ∧ job.origin = origin ∧
        needsDeploy state origin = true)
      (fun past _ _ => needsDeploy state origin = false ∧
        ∃ moment ∈ past, Reassures state moment) (gate cfg) past world := by
  apply ask_bind.mpr
  intro locked world₁ step₁
  have ⟨_, inv₁⟩ := keeps past world .flock locked world₁ trivial step₁ holds
  refine ⟨trivial, ?_⟩
  have welcome : locked = true := welcomes _ step₁.2
  subst welcome
  apply ask_bind.mpr
  intro entered world₂ step₂
  have ⟨_, inv₂⟩ := keeps _ world₁ .cdRepo entered world₂ trivial step₂ inv₁
  refine ⟨trivial, ?_⟩
  have welcome : entered = true := welcomes _ step₂.2
  subst welcome
  apply ask_bind.mpr
  intro fetched world₃ step₃
  have ⟨_, inv₃⟩ := keeps _ world₂ .gitFetch fetched world₃ trivial step₃ inv₂
  refine ⟨trivial, ?_⟩
  have welcome : fetched = true := welcomes _ step₃.2
  subst welcome
  apply ask_bind.mpr
  intro tag world₄ step₄
  have ⟨_, inv₄⟩ := keeps _ world₃ .newestTag tag world₄ trivial step₄ inv₃
  refine ⟨trivial, ?_⟩
  have tagged : substitute tag ≠ "" := welcomes _ step₄.2
  dsimp only
  rw [if_neg tagged]
  apply ask_bind.mpr
  intro rev world₅ step₅
  have ⟨_, inv₅⟩ := keeps _ world₄ (.revParse (substitute tag)) rev world₅ trivial step₅
    inv₄
  refine ⟨trivial, ?_⟩
  have resolved : substitute rev = origin := welcomes _ step₅.2
  apply aside_bind keeps readLastGood_steady inv₅
  intro past₆ world₆ lastGood inv₆ _
  rw [resolved, if_neg present]
  apply aside_bind keeps (driftWatch_steady origin) inv₆
  intro past₇ world₇ _ inv₇ _
  apply ask_bind.mpr
  intro needed world₈ step₈
  have ⟨_, inv₈⟩ := keeps _ world₇ (.needsDeploy origin) needed world₈ trivial step₈ inv₇
  refine ⟨trivial, ?_⟩
  have answered : needed = needsDeploy state origin := by
    have computed := step₈.1.2
    rw [loads _ _ inv₇] at computed
    exact computed
  change Bool at needed
  cases needed with
  | false =>
      apply aside_bind keeps (log_steady _) inv₈
      intro past₉ world₉ _ inv₉ _
      exact Attempt.mono (finish_reassures welcomes (loads _ _ inv₉))
        (fun _ _ _ impossible => impossible.elim)
        fun _ _ _ reassured => ⟨answered.symm, reassured⟩
  | true =>
      apply aside_bind keeps (progress_steady _ _ _) inv₈
      intro past₉ world₉ _ inv₉ _
      apply Attempt.bind (ciGate_welcomed welcomes keeps inv₉)
      exact fun _ _ _ holds => ⟨holds, rfl, answered.symm⟩

end

end Homelab.Autodeploy
