import Homelab.Autodeploy.Crash

/-! # The runtime follows the baseline

Between runs every managed target runs what the baseline says. A run moves all
of them to the new commit, or moves those it tried back.
-/

namespace Homelab.Autodeploy

open Effects Text

/-- `last_good_sha`, or the checkout's `HEAD` while none is recorded. -/
def World.baseline (world : World) : String :=
  if world.state.lastGood = "" then world.checkout.head else world.state.lastGood

def Converged (cfg : Config) (repo : Repository) (world : World) : Prop :=
  ∀ target, Managed (csv cfg.allowlist) (csv cfg.neverAuto) target →
    world.runtime target = content cfg.rules (repo.files world.baseline) target

/-- Git lists every changed path and knows its `HEAD`, resets and state writes
succeed, and no playbook is missing. -/
def Ideal (repo : Repository) (moment : Moment interface World) : Prop :=
  match moment.operation, moment.answer with
  | .gitDiff before after, (text : String) =>
      ∀ path, repo.files before path ≠ repo.files after path → path ∈ readLines text
  | .headSha, (text : String) => substitute text = moment.before.checkout.head
  | .gitReset _, (done : Bool) => done = true
  | .stateSet _, (written : Bool) => written = true
  | .playbook _, (present : Bool) => present = true
  | _, _ => True

def Restores (moment : Moment interface World) : Prop :=
  match moment.operation with
  | .log (.rollbackFailed _) => False
  | _ => True

/-- The failed target's name without the blanks around it is no other target
that was tried before. -/
def Apart (moment : Moment interface World) : Prop :=
  match moment.operation with
  | .rollbackTargets failed targets => strip failed ∉ targets.takeWhile (· ≠ failed)
  | _ => True

def WellRun (repo : Repository) (moment : Moment interface World) : Prop :=
  Ideal repo moment ∧ Restores moment ∧ Apart moment

/-! ## During a run -/

def Calm (past : Past interface World) : Prop :=
  ∀ moment ∈ past, ∀ origin now, durable moment ≠ some (.onFail origin now)

/-- What a run that started in `start` leaves. -/
structure Follows (cfg : Config) (repo : Repository) (start : World)
    (past : Past interface World) (world : World) : Prop where
  converged : Converged cfg repo world
  reset : ¬Calm past → world.baseline = start.baseline ∧
    world.checkout = ⟨start.baseline, repo.files start.baseline⟩

/-- The checkout is at `commit`; the targets in `done` are deployed from it, and
those outside `touched` are as they were. -/
structure Placed (cfg : Config) (repo : Repository) (start : World) (commit : String)
    (touched done : List String) (past : Past interface World) (world : World) :
    Prop where
  calm : Calm past
  state : world.state.lastGood = start.state.lastGood
  checkout : world.checkout = ⟨commit, repo.files commit⟩
  deployed : ∀ target ∈ done,
    world.runtime target = content cfg.rules (repo.files commit) target
  untouched : ∀ target, target ∉ touched →
    world.runtime target = start.runtime target

section

variable {cfg : Config} {repo : Repository} {start world after : World}
  {commit : String} {touched done : List String} {past : Past interface World}

abbrev Moves {α : Type} (cfg : Config) (repo : Repository) (start : World)
    (post : Past interface World → World → α → Prop) (attempt : Sh α)
    (past : Past interface World) (world : World) : Prop :=
  Attempt.Guarded ((system cfg repo).restrict (WellRun repo)) (fun _ _ => True) post
    (fun past world _ => Follows cfg repo start past world) attempt past world

theorem Calm.cons {operation : Operation} (calm : Calm past)
    (stateless : operation.stateless) (answer : Answer operation) :
    Calm (⟨world, operation, answer, after⟩ :: past) := by
  apply forall_cons _ calm
  rw [durable_stateless stateless]
  exact nofun

theorem World.baseline_same (same : Same world after) :
    after.baseline = world.baseline := by
  rw [World.baseline, World.baseline, same.state, same.checkout]

theorem Converged.same (converged : Converged cfg repo world) (same : Same world after) :
    Converged cfg repo after := by
  intro target managed
  rw [same.runtime, World.baseline_same same]
  exact converged target managed

theorem Placed.cons (placed : Placed cfg repo start commit touched done past world)
    (operation : Operation) (answer : Answer operation) (stateless : operation.stateless)
    (same : Same world after) :
    Placed cfg repo start commit touched done
      (⟨world, operation, answer, after⟩ :: past) after := by
  rcases placed with ⟨calm, state, checkout, deployed, untouched⟩
  refine ⟨calm.cons stateless answer, ?_, same.checkout.trans checkout, ?_, ?_⟩
  · rw [same.state, state]
  · rw [same.runtime]
    exact deployed
  · rw [same.runtime]
    exact untouched

theorem Placed.touch (placed : Placed cfg repo start commit touched done past world)
    (more : List String) :
    Placed cfg repo start commit (more ++ touched) done past world := by
  rcases placed with ⟨calm, state, checkout, deployed, untouched⟩
  refine ⟨calm, state, checkout, deployed, ?_⟩
  intro target outside
  exact untouched target fun member => outside (List.mem_append_right _ member)

theorem placed_keeps : Keeps ((system cfg repo).restrict (WellRun repo))
    Operation.aside (fun _ _ => True) (Placed cfg repo start commit touched done) := by
  intro past world operation answer after aside step placed
  exact ⟨trivial, placed.cons operation answer aside.stateless
    (system_aside operation aside step.1)⟩

theorem follows_keeps : Keeps ((system cfg repo).restrict (WellRun repo))
    Operation.aside (fun _ _ => True) (Follows cfg repo start) := by
  intro past world operation answer after aside step follows
  have same := system_aside operation aside step.1
  refine ⟨trivial, follows.converged.same same, ?_⟩
  intro recorded
  rw [World.baseline_same same, same.checkout]
  apply follows.reset
  exact fun calm => recorded (calm.cons aside.stateless answer)

/-- A command on a touched target that is not deployed yet. -/
theorem Placed.ansible {stage : Stage} {target : String} {status : Nat}
    (placed : Placed cfg repo start commit touched done past world)
    (member : target ∈ touched) (fresh : target ∉ done)
    (step : (system cfg repo).Step world (.ansible stage target) status after) :
    Placed cfg repo start commit touched done
      (⟨world, .ansible stage target, status, after⟩ :: past) after := by
  rcases placed with ⟨calm, state, checkout, deployed, untouched⟩
  have others : ∀ other, other ≠ target → after.runtime other = world.runtime other := by
    intro other different
    cases stage with
    | apply =>
        rcases step with ⟨live, rfl, _⟩
        exact Function.update_of_ne different _ _
    | _ => exact congrArg (World.runtime · other) step
  have ⟨sameState, sameCheckout, _⟩ := system_ansible step
  have stateless : (Operation.ansible stage target).stateless := trivial
  refine ⟨calm.cons stateless status, ?_, sameCheckout.trans checkout, ?_, ?_⟩
  · rw [sameState, state]
  · intro other otherMember
    rw [others other fun same => fresh (same ▸ otherMember)]
    exact deployed other otherMember
  · intro other outside
    rw [others other fun same => outside (same ▸ member)]
    exact untouched other outside

theorem anything_keeps {allowed : Operation → Prop} :
    Keeps ((system cfg repo).restrict (WellRun repo)) allowed (fun _ _ => True)
      (fun _ _ => True) :=
  fun _ _ _ _ _ _ _ _ => ⟨trivial, trivial⟩

/-- Deploying a target touches no other, and puts it at the commit. -/
theorem placed_deploys {target : String} (member : target ∈ touched)
    (fresh : target ∉ done) :
    Deploys ((system cfg repo).restrict (WellRun repo)) target (fun _ _ => True)
      (Placed cfg repo start commit touched done)
      (Placed cfg repo start commit touched (target :: done)) where
  aside := placed_keeps
  playbook := by
    intro past world answer after step placed
    exact ⟨trivial, placed.cons (.playbook _) answer trivial (.of_eq step.1.1)⟩
  ansible := by
    intro past world stage answer after step present placed
    exact ⟨trivial, placed.ansible member fresh step.1⟩
  applied := by
    intro past world after step present placed
    have next := placed.ansible member fresh step.1
    rcases step.1 with ⟨live, rfl, applied⟩
    refine ⟨next.calm, next.state, next.checkout, ?_, next.untouched⟩
    intro other otherMember
    rcases List.mem_cons.mp otherMember with same | earlier
    · subst same
      have live' : live = content cfg.rules world.checkout.files other := applied rfl
      rw [placed.checkout] at live'
      exact (Function.update_self _ _ _).trans live'
    · exact next.deployed other earlier
  absent := by
    intro before past world step _ missing placed
    cases step.2.1

/-! ## The parts of a run -/

theorem recordFail_steady (origin : String) :
    (recordFail origin).Steady fun _ => True := by
  apply Attempt.Steady.bind (ask_steady trivial)
  intro now
  apply Attempt.Steady.bind (ask_steady trivial)
  exact fun _ => Attempt.steady_pure ()

theorem checkout_moves (touched : List String) (calm : Calm past)
    (state : world.state.lastGood = start.state.lastGood)
    (untouched : ∀ target, target ∉ touched →
      world.runtime target = start.runtime target) :
    Moves cfg repo start
      (fun past world _ => Placed cfg repo start commit touched [] past world)
      (checkout commit) past world := by
  apply ask_bind.mpr
  intro reset after step
  refine ⟨trivial, ?_⟩
  have done : reset = true := step.2.1
  subst done
  obtain rfl : after = { world with checkout := ⟨commit, repo.files commit⟩ } := step.1
  apply lfsPull_steady.guarded placed_keeps
  have stateless : (Operation.gitReset commit).stateless := trivial
  exact ⟨calm.cons stateless true, state, rfl, by simp, untouched⟩

/-- What is known of a plan: it holds the managed targets that differ. -/
structure Planned (cfg : Config) (repo : Repository) (job : Job) (targets : List String) :
    Prop where
  nodup : targets.Nodup
  words : ∀ target ∈ targets, target ≠ "" ∧ OneLine target
  same : ∀ target, Managed (csv cfg.allowlist) (csv cfg.neverAuto) target →
    target ∉ targets → content cfg.rules (repo.files job.lastGood) target =
      content cfg.rules (repo.files job.origin) target

/-- Targets no listed file stands for have the same content in both commits. -/
theorem planned_of_listed {job : Job} {changed : List String}
    (single : ∀ file ∈ changed, OneLine file)
    (listed : ∀ path, repo.files job.lastGood path ≠ repo.files job.origin path →
      path ∈ changed) :
    Planned cfg repo job
      (planTargets cfg.rules (csv cfg.allowlist) (csv cfg.neverAuto) changed) := by
  refine ⟨nodup_planTargets, fun _ member => planTargets_word single member, ?_⟩
  intro target managed outside
  funext path
  unfold content
  split
  · rename_i stands
    by_contra different
    apply outside
    exact mem_planTargets.mpr ⟨⟨path, listed path different, stands⟩, managed⟩
  · rfl

theorem adopt_moves {job : Job} (calm : Calm past) (same : Same start world) :
    Moves cfg repo start
      (fun past world plan => Placed cfg repo start job.origin [] [] past world ∧
        Planned cfg repo job plan.targets)
      (adopt cfg job) past world := by
  have attempted : Moves cfg repo start
      (fun past world _ => Calm past ∧ world.state.lastGood = start.state.lastGood ∧
        world.runtime = start.runtime)
      (stateSet (.onAttempt job.origin)) past world := by
    apply ask_bind.mpr
    intro written after step
    have done : written = true := step.2.1
    subst done
    rcases step.1 with ⟨state, applied, rfl⟩
    refine ⟨trivial, forall_cons ?_ calm, ?_, same.runtime⟩
    · exact fun origin now failed => nomatch failed
    · have other : ∀ sha now, StateCommand.onAttempt job.origin ≠ .onSuccess sha now :=
        fun _ _ => nofun
      exact (apply_lastGood other applied).trans (congrArg StateFile.lastGood same.state)
  apply Attempt.bind attempted
  intro past₁ world₁ _ ⟨calm₁, state₁, runtime₁⟩
  apply Attempt.bind (checkout_moves [] calm₁ state₁
    fun target _ => congrFun runtime₁ target)
  intro past₂ world₂ _ placed₂
  apply aside_bind placed_keeps (progress_steady _ _ _) placed₂
  intro past₃ world₃ _ placed₃ _
  apply ask_bind.mpr
  intro diff world₄ step₄
  refine ⟨trivial, ?_⟩
  have listed : ∀ path, repo.files job.lastGood path ≠ repo.files job.origin path →
      path ∈ readLines diff := step₄.2.1
  have placed₄ := placed₃.cons (.gitDiff job.lastGood job.origin) diff trivial
    (.of_eq step₄.1)
  apply ask_bind.mpr
  intro plan world₅ step₅
  refine ⟨trivial, ?_⟩
  have placed₅ := placed₄.cons (.plan (readLines diff)) plan trivial
    (.of_eq step₅.1.1)
  apply ask_bind.mpr
  intro skipped world₆ step₆
  have placed₆ := placed₅.cons (.planSkipped (readLines diff)) skipped trivial
    (.of_eq step₆.1.1)
  refine ⟨trivial, placed₆, ?_⟩
  have single : ∀ file ∈ readLines diff, OneLine file :=
    fun file member => (readLines_each member).2
  have read : readLines plan = planTargets cfg.rules (csv cfg.allowlist)
      (csv cfg.neverAuto) (readLines diff) :=
    (congrArg readLines step₅.1.2).trans (readLines_planTargets single)
  rw [read]
  exact planned_of_listed single listed

/-- How a run starts: everything is at the job's baseline. -/
structure Begun (cfg : Config) (repo : Repository) (start : World) (job : Job) :
    Prop where
  converged : Converged cfg repo start
  baseline : job.lastGood = start.baseline
  present : job.origin ≠ ""
  resolved : substitute job.origin = job.origin

/-- Recording success moves the baseline to where the targets are already. -/
theorem recordSuccess_moves {job : Job} {targets : List String}
    (begun : Begun cfg repo start job) (planned : Planned cfg repo job targets)
    (members : ∀ target, target ∈ done ↔ target ∈ targets)
    (placed : Placed cfg repo start job.origin done done past world) :
    Moves cfg repo start (fun past world _ => Follows cfg repo start past world)
      (recordSuccess job.origin) past world := by
  apply aside_bind placed_keeps now_steady placed
  intro past₁ world₁ now placed₁ _
  apply ask_bind.mpr
  intro written after step
  refine ⟨trivial, ?_⟩
  have done' : written = true := step.2.1
  subst done'
  rcases step.1 with ⟨state, applied, rfl⟩
  rcases Option.bind_eq_some_iff.mp applied with ⟨found, _, next⟩
  cases next
  constructor
  · intro target managed
    have moved : World.baseline { world₁ with
        state := .document (onSuccess found job.origin now) } = job.origin := by
      simp [World.baseline, begun.resolved, begun.present]
    rw [moved]
    by_cases member : target ∈ done
    · exact placed₁.deployed target member
    · have outside : target ∉ targets := fun found => member ((members target).mpr found)
      have before := begun.converged target managed
      rw [← begun.baseline] at before
      exact (placed₁.untouched target member).trans
        (before.trans (planned.same target managed outside))
  · intro recorded
    apply absurd _ recorded
    apply forall_cons _ placed₁.calm
    exact fun origin now failed => nomatch failed

/-- A full restore and the record of the failure leave the baseline where it was. -/
theorem recordFail_moves {job : Job} (begun : Begun cfg repo start job)
    (within : ∀ target ∈ touched, target ∈ done)
    (placed : Placed cfg repo start job.lastGood touched done past world) :
    Moves cfg repo start (fun past world _ => Follows cfg repo start past world)
      (recordFail job.origin) past world := by
  apply aside_bind placed_keeps now_steady placed
  intro past₁ world₁ now placed₁ _
  apply ask_bind.mpr
  intro written after step
  refine ⟨trivial, ?_⟩
  have done' : written = true := step.2.1
  subst done'
  rcases step.1 with ⟨state, applied, rfl⟩
  have other : ∀ sha stamp, StateCommand.onFail job.origin now ≠ .onSuccess sha stamp :=
    fun _ _ => nofun
  have kept := (apply_lastGood other applied).trans placed₁.state
  have still : World.baseline { world₁ with state := .document state } =
      start.baseline := by
    rw [World.baseline, kept, placed₁.checkout, begun.baseline, World.baseline]
    split <;> rfl
  constructor
  · intro target managed
    rw [still]
    by_cases member : target ∈ touched
    · rw [← begun.baseline]
      exact placed₁.deployed target (within target member)
    · exact (placed₁.untouched target member).trans (begun.converged target managed)
  · intro _
    refine ⟨still, ?_⟩
    rw [← begun.baseline]
    exact placed₁.checkout

/-- A run that did not restore everything ends in the report that says so. -/
theorem reportRollback_moves {job : Job} {rbFail : String}
    (follows : rbFail = "" → Follows cfg repo start past world) :
    Moves cfg repo start (fun past world _ => Follows cfg repo start past world)
      (reportRollback cfg job rbFail) past world := by
  by_cases restored : rbFail = ""
  · have steady : (reportRollback cfg job rbFail).Steady Operation.aside :=
      reportRollback_steady job rbFail
    exact steady.guarded follows_keeps (follows restored)
  · rw [reportRollback, if_neg restored]
    apply Attempt.bind ((notify_steady _ _ _).guarded anything_keeps trivial)
    intro past₁ world₁ _ _
    apply Attempt.lift_iff.mpr
    intro answer after step
    exact step.2.2.1.elim

theorem finish_moves {runOk : Bool} {status : Nat}
    (follows : Follows cfg repo start past world) :
    Moves cfg repo start (fun past world _ => Follows cfg repo start past world)
      (finish runOk status : Sh Unit) past world :=
  finish_guarded follows_keeps follows

theorem takeWhile_tried {tried rest : List String} {failed : String}
    (nodup : (tried ++ failed :: rest).Nodup) :
    (tried ++ failed :: rest).takeWhile (· ≠ failed) = tried := by
  have fresh : ∀ target ∈ tried, target ≠ failed := by
    intro target member
    exact (List.nodup_append.mp nodup).2.2 target member failed List.mem_cons_self
  rw [List.takeWhile_append_of_pos (by simpa using fresh)]
  simp

theorem restore_moves {job : Job} {restore : List String} (nodup : restore.Nodup)
    (words : ∀ target ∈ restore, target ≠ "")
    (placed : Placed cfg repo start job.lastGood touched [] past world) :
    Moves cfg repo start
      (fun past world rbFail => ∃ restored,
        Placed cfg repo start job.lastGood (restore ++ touched) restored past world ∧
          (rbFail = "" → ∀ target ∈ restore, target ∈ restored))
      (restoreAll cfg restore "") past world := by
  have deploys : ∀ target ∈ restore, ∀ done, target ∉ done →
      Deploys ((system cfg repo).restrict (WellRun repo)) target (fun _ _ => True)
        (Placed cfg repo start job.lastGood (restore ++ touched) done)
        (Placed cfg repo start job.lastGood (restore ++ touched) (target :: done)) :=
    fun target member done fresh =>
      placed_deploys (List.mem_append_left _ member) fresh
  have fresh : ∀ target ∈ restore, target ∉ ([] : List String) := by simp
  apply Attempt.result_mono (restoreAll_guarded
    (Placed cfg repo start job.lastGood (restore ++ touched)) nodup words fresh deploys
    (placed.touch restore))
  intro past₁ world₁ rbFail ⟨restored, placed₁, all⟩
  refine ⟨restored, placed₁, fun complete target member => ?_⟩
  exact (all complete).2 target (.inl member)

theorem rollback_moves {job : Job} {targets tried rest : List String} {failed : String}
    (begun : Begun cfg repo start job) (planned : Planned cfg repo job targets)
    (split : targets = tried ++ failed :: rest)
    (placed : Placed cfg repo start job.origin (failed :: tried.reverse) tried.reverse
      past world) :
    Moves cfg repo start (fun past world _ => Follows cfg repo start past world)
      (rollback cfg job targets failed) past world := by
  apply Attempt.bind (checkout_moves (failed :: tried.reverse) placed.calm placed.state
    placed.untouched)
  intro past₁ world₁ _ placed₁
  apply aside_bind placed_keeps (notify_steady _ _ _) placed₁
  intro past₂ world₂ _ placed₂ _
  apply ask_bind.mpr
  intro restore world₃ step₃
  refine ⟨trivial, ?_⟩
  have placed₃ := placed₂.cons (.rollbackTargets failed targets) restore trivial
    (.of_eq step₃.1.1)
  have sublist : (rollbackTargets targets failed).Sublist targets :=
    rollbackTargets_sublist
  have words : ∀ target ∈ rollbackTargets targets failed, target ≠ "" ∧ OneLine target :=
    fun target member => planned.words target (sublist.subset member)
  have read : readLines restore = rollbackTargets targets failed :=
    (congrArg readLines step₃.1.2).trans (readLines_printLines words)
  have nodup : (rollbackTargets targets failed).Nodup := planned.nodup.sublist sublist
  have apart : strip failed ∉ targets.takeWhile (· ≠ failed) := step₃.2.2.2
  have covered : ∀ target ∈ failed :: tried.reverse,
      target ∈ rollbackTargets targets failed := by
    intro target member
    subst split
    rw [takeWhile_tried planned.nodup] at apart
    apply mem_rollbackTargets (fun target known => (planned.words target known).1) apart
    simpa using member
  generalize rollbackTargets targets failed = names at read words nodup covered
  rw [read]
  apply Attempt.bind (restore_moves nodup
    (fun target member => (words target member).1) placed₃)
  intro past₄ world₄ rbFail ⟨restored, placed₄, all⟩
  by_cases complete : rbFail = ""
  · have within : ∀ target ∈ names ++ failed :: tried.reverse, target ∈ restored := by
      intro target member
      apply all complete target
      exact (List.mem_append.mp member).elim id (covered target)
    apply Attempt.bind (recordFail_moves begun within placed₄)
    intro past₅ world₅ _ follows₅
    apply Attempt.bind (reportRollback_moves fun _ => follows₅)
    exact fun past₆ world₆ _ follows₆ => finish_moves follows₆
  · apply Attempt.bind ((recordFail_steady job.origin).guarded anything_keeps trivial)
    intro past₅ world₅ _ _
    apply Attempt.bind (reportRollback_moves fun impossible => absurd impossible complete)
    exact fun past₆ world₆ _ follows₆ => finish_moves follows₆

theorem deploy_moves {job : Job} {plan : Plan} (begun : Begun cfg repo start job)
    (planned : Planned cfg repo job plan.targets)
    (placed : Placed cfg repo start job.origin [] [] past world) :
    Moves cfg repo start (fun past world _ => Follows cfg repo start past world)
      (deploy cfg job plan) past world := by
  apply aside_bind placed_keeps (log_steady _) placed
  intro past₁ world₁ _ placed₁ _
  apply aside_bind placed_keeps (notify_steady _ _ _) placed₁
  intro past₂ world₂ _ placed₂ _
  apply Attempt.bind (deployAll_guarded
    (fun done => Placed cfg repo start job.origin done done)
    (fun target done => Placed cfg repo start job.origin (target :: done) done)
    planned.nodup (by simp) (fun _ => placed_keeps)
    (fun target _ _ _ placed => placed.touch [target])
    (fun _ _ _ fresh => placed_deploys List.mem_cons_self fresh) placed₂)
  intro past₃ world₃ failed ended
  cases failed with
  | some failed =>
      rcases ended with ⟨tried, rest, split, placed₃⟩
      rw [List.append_nil] at placed₃
      exact rollback_moves begun planned split placed₃
  | none =>
      have placed₃ : Placed cfg repo start job.origin plan.targets.reverse
          plan.targets.reverse past₃ world₃ := by simpa using ended
      apply Attempt.bind (recordSuccess_moves begun planned (by simp) placed₃)
      intro past₄ world₄ _ follows₄
      apply aside_bind follows_keeps (log_steady _) follows₄
      intro past₅ world₅ _ follows₅ _
      apply aside_bind follows_keeps (notify_steady _ _ _) follows₅
      exact fun past₆ world₆ _ follows₆ _ => finish_moves follows₆

theorem adoptOnly_moves {job : Job} {skipped : List String}
    (begun : Begun cfg repo start job) (planned : Planned cfg repo job [])
    (placed : Placed cfg repo start job.origin [] [] past world) :
    Moves cfg repo start (fun past world _ => Follows cfg repo start past world)
      (adoptOnly cfg job skipped) past world := by
  unfold adoptOnly
  split
  · apply aside_bind placed_keeps (log_steady _) placed
    intro past₁ world₁ _ placed₁ _
    apply Attempt.bind (recordSuccess_moves begun planned (by simp) placed₁)
    intro past₂ world₂ _ follows₂
    apply aside_bind follows_keeps (notify_steady _ _ _) follows₂
    exact fun past₃ world₃ _ follows₃ _ => finish_moves follows₃
  · apply aside_bind placed_keeps (log_steady _) placed
    intro past₁ world₁ _ placed₁ _
    apply Attempt.bind (recordSuccess_moves begun planned (by simp) placed₁)
    intro past₂ world₂ _ follows₂
    apply aside_bind follows_keeps (progress_steady _ _ _) follows₂
    exact fun past₃ world₃ _ follows₃ _ => finish_moves follows₃

theorem calm_keeps : Keeps ((system cfg repo).restrict (WellRun repo)) Operation.aside
    (fun _ _ => True) (fun past _ => Calm past) := by
  intro past world operation answer after aside step calm
  exact ⟨trivial, calm.cons aside.stateless answer⟩

theorem baseline_of_gated {job : Job} (same : Same start world)
    (baseline : Baseline ((system cfg repo).restrict (WellRun repo)) world
      job.lastGood) :
    job.lastGood = start.baseline := by
  rw [← World.baseline_same same, World.baseline]
  by_cases unrecorded : world.state.lastGood = ""
  · rcases baseline.unrecorded unrecorded with
      ⟨before, answer, after, step, checkout, found⟩
    have head : substitute answer = before.checkout.head := step.2.1
    rw [if_pos unrecorded, found, head, checkout]
  · rw [if_neg unrecorded]
    exact baseline.recorded unrecorded

theorem controller_moves (converged : Converged cfg repo world) :
    Moves cfg repo world (fun past after _ => Follows cfg repo world past after)
      (controller cfg) [] world := by
  have calm : Calm [] := by simp [Calm]
  apply Attempt.bind (Attempt.mono (gate_guarded calm_keeps calm)
    (fun _ _ _ holds => holds) _)
  · intro past₁ world₁ job ⟨⟨calm₁, same₁⟩, gated⟩
    have begun : Begun cfg repo world job := by
      refine ⟨converged, baseline_of_gated same₁ gated.baseline, gated.present, ?_⟩
      rcases gated.resolved with ⟨_, answer, _, _, found⟩
      rw [found, substitute_substitute]
    apply Attempt.bind (adopt_moves calm₁ same₁)
    intro past₂ world₂ plan ⟨placed₂, planned⟩
    split
    · rename_i none
      rw [none] at planned
      exact adoptOnly_moves begun planned placed₂
    · exact deploy_moves begun planned placed₂
  · intro past₁ world₁ status ⟨calm₁, same₁⟩
    exact ⟨converged.same same₁, fun recorded => absurd calm₁ recorded⟩

theorem run_follows {run : CdRun} (converged : Converged cfg repo run.before)
    (valid : run.Valid ((system cfg repo).restrict (WellRun repo))
      (fun _ => (controller cfg).run))
    (ended : run.Completed) :
    Follows cfg repo run.before run.moments.reverse run.after := by
  rcases Option.isSome_iff_exists.mp ended with ⟨result, outcome⟩
  have execution : Executes ((system cfg repo).restrict (WellRun repo))
      (controller cfg).run run.before run.moments run.after (some result) := by
    rw [← outcome]
    exact valid
  have holds := Effects.Guarded.result (controller_moves converged) execution
  rw [List.append_nil] at holds
  cases result <;> exact holds

end

/-- Over any sequence of runs that are not killed, every managed target runs what
the baseline says after each of them, and a failed run leaves the baseline and
the checkout where they were. -/
theorem runtime_follows_baseline {cfg : Config} {repo : Repository}
    {initial final : World} {runs : List CdRun}
    (history : History ((system cfg repo).restrict (WellRun repo))
      (fun _ => (controller cfg).run) initial runs final)
    (completed : ∀ run ∈ runs, run.Completed) (start : Converged cfg repo initial) :
    Converged cfg repo final ∧ ∀ run ∈ runs, Converged cfg repo run.after ∧
      ∀ origin, Failed origin run →
        run.after.baseline = run.before.baseline ∧
        run.after.checkout =
          ⟨run.before.baseline, repo.files run.before.baseline⟩ := by
  apply History.invariant (fun runs world => Converged cfg repo world ∧
    ∀ run ∈ runs, Converged cfg repo run.after ∧
      ∀ origin, Failed origin run → run.after.baseline = run.before.baseline ∧
        run.after.checkout =
          ⟨run.before.baseline, repo.files run.before.baseline⟩) _ _ history completed
  · exact ⟨start, by simp⟩
  · intro earlier run ⟨converged, each⟩ valid ended
    have follows := run_follows converged valid ended
    have now : ∀ origin, Failed origin run →
        run.after.baseline = run.before.baseline ∧ run.after.checkout =
          ⟨run.before.baseline, repo.files run.before.baseline⟩ := by
      intro origin ⟨moment, member, stamp, recorded⟩
      apply follows.reset
      exact fun calm => calm moment (List.mem_reverse.mpr member) origin stamp recorded
    refine ⟨follows.converged, ?_⟩
    intro other member
    rcases List.mem_append.mp member with before | last
    · exact each other before
    · rw [List.mem_singleton.mp last]
      exact ⟨follows.converged, now⟩

/-! ## Runs of a host -/

/-- Git lists every changed path. -/
def Lists (repo : Repository) (moment : Moment interface World) : Prop :=
  match moment.operation, moment.answer with
  | .gitDiff before after, (text : String) =>
      ∀ path, repo.files before path ≠ repo.files after path → path ∈ readLines text
  | _, _ => True

def answered (moment : Moment interface World) : Bool :=
  match moment.operation, moment.answer with
  | .headSha, (text : String) => substitute text = moment.before.checkout.head
  | .gitReset _, (done : Bool) => done
  | .stateSet _, (written : Bool) => written
  | .playbook _, (present : Bool) => present
  | .log (.rollbackFailed _), _ => false
  | _, _ => true

def plain (moment : Moment interface World) : Bool :=
  match moment.operation with
  | .rollbackTargets failed targets => strip failed ∉ targets.takeWhile (· ≠ failed)
  | _ => true

theorem ideal_of_answered {repo : Repository} {moment : Moment interface World}
    (lists : Lists repo moment) (rest : answered moment = true) :
    Ideal repo moment ∧ Restores moment := by
  rcases moment with ⟨before, operation, answer, after⟩
  cases operation with
  | gitDiff => exact ⟨lists, trivial⟩
  | headSha =>
      have computed : decide (substitute answer = before.checkout.head) = true := rest
      have same := of_decide_eq_true computed
      exact ⟨same, trivial⟩
  | gitReset | stateSet | playbook => exact ⟨rest, trivial⟩
  | log message =>
      cases message with
      | rollbackFailed => cases rest
      | _ => exact ⟨trivial, trivial⟩
  | _ => exact ⟨trivial, trivial⟩

theorem apart_of_plain {moment : Moment interface World} (rest : plain moment = true) :
    Apart moment := by
  rcases moment with ⟨before, operation, answer, after⟩
  cases operation with
  | rollbackTargets failed targets =>
      have computed : decide (strip failed ∉ targets.takeWhile (· ≠ failed)) = true :=
        rest
      have fresh := of_decide_eq_true computed
      exact fresh
  | _ => trivial

theorem host_lists {cfg : Config} {repo : Repository} {choose : Choice} {world : World}
    {fuel : Nat}
    (lists : ∀ before after path, repo.files before path ≠ repo.files after path →
      path ∈ readLines (choose (.gitDiff before after))) :
    ∀ moment ∈ (hostRun cfg repo choose world fuel).moments, Lists repo moment := by
  apply simulate_each
  intro past world operation
  cases operation with
  | gitDiff before after => exact lists before after
  | _ => trivial

/-- A run of the pilot host from commit `a` to commit `b`. -/
def deployedRun : CdRun :=
  pilotRun (willing "b" "ansible/roles/homepage/tasks/main.yml\n") (pilotWorld "a") 40

theorem deployedRun_computed :
    (deployedRun.outcome.isSome = true ∧ deployedRun.moments.all
      (fun moment => answered moment && plain moment) = true) ∧
      deployedRun.after.baseline = "b" := by
  decide +kernel

theorem deployedRun_wellRun :
    ∀ moment ∈ deployedRun.moments, WellRun pilotRepository moment := by
  have listed : ∀ moment ∈ deployedRun.moments, Lists pilotRepository moment := by
    apply host_lists
    intro before after path different
    by_cases changed : path = "ansible/roles/homepage/tasks/main.yml"
    · rw [changed]
      have line : "ansible/roles/homepage/tasks/main.yml" ∈
          readLines "ansible/roles/homepage/tasks/main.yml\n" := by decide
      exact line
    · apply absurd _ different
      simp [pilotRepository, changed]
  have rest := deployedRun_computed.1.2
  intro moment member
  have here := List.all_eq_true.mp rest moment member
  rw [Bool.and_eq_true] at here
  have ideal := ideal_of_answered (listed moment member) here.1
  exact ⟨ideal.1, ideal.2, apart_of_plain here.2⟩

theorem pilotWorld_converged {commit : String}
    (recorded : (pilotWorld commit).baseline = commit) :
    Converged pilotConfig pilotRepository (pilotWorld commit) := by
  have live : (pilotWorld commit).runtime =
      content pilotConfig.rules (pilotRepository.files commit) := by
    simp only [pilotWorld]
  intro target managed
  rw [recorded, live]

theorem runtime_follows_baseline_deployedRun :
    deployedRun.after.baseline = "b" ∧
      Converged pilotConfig pilotRepository deployedRun.after := by
  have valid : deployedRun.Valid
      ((system pilotConfig pilotRepository).restrict (WellRun pilotRepository))
      (fun _ => (controller pilotConfig).run) :=
    Executes.restrict (pilotRun_valid _ _ _) deployedRun_wellRun
  have completed : ∀ run ∈ [deployedRun], run.Completed := by
    intro run member
    rw [List.mem_singleton.mp member]
    exact deployedRun_computed.1.1
  refine ⟨deployedRun_computed.2, ?_⟩
  exact (runtime_follows_baseline (.next .start deployedRun rfl valid) completed
    (pilotWorld_converged (by decide))).1

/-! ## A target with a blank in its name -/

/-- A playbook and a role whose names differ in a blank, different in every commit. -/
def blankRepository : Repository where
  files commit path :=
    if path = "ansible/playbooks/a .yml" then some "- hosts: all"
    else if path = "ansible/playbooks/a.yml" ∨
        path = "ansible/roles/a /meta" then some commit
    else none

def blankWorld : World where
  state := .document (onSuccess ∅ "1" 0)
  metrics := none
  checkout := ⟨"1", blankRepository.files "1"⟩
  runtime := content pilotConfig.rules (blankRepository.files "1")

/-- Git lists the paths byte by byte, and the second target fails. -/
def blankChoice : (operation : Operation) → Answer operation
  | .ansible .apply target => if target = "a " then (1 : Nat) else (0 : Nat)
  | operation => willing "2"
      "ansible/playbooks/a.yml\nansible/roles/a /meta\n" operation

def blankRun : CdRun := hostRun pilotConfig blankRepository blankChoice blankWorld 100

/-- What the run comes to: it is not killed, nothing fails but the second target,
which is left wrecked. -/
theorem blankRun_computed :
    (blankRun.outcome.isSome = true ∧ blankRun.moments.all answered = true) ∧
      (blankRun.before.baseline = "1" ∧ blankRun.after.baseline = "1") ∧
      blankRun.after.runtime "a " "ansible/roles/a /meta" = none := by
  decide +kernel

/-- The failed target is taken for the one before it and is not restored, while
the run reports a complete rollback. -/
theorem blank_target_not_restored :
    ∃ run : CdRun, run.Valid (system pilotConfig blankRepository)
        (fun _ => (controller pilotConfig).run) ∧
      run.Completed ∧
      (∀ moment ∈ run.moments, Ideal blankRepository moment ∧ Restores moment) ∧
      Converged pilotConfig blankRepository run.before ∧
      ¬Converged pilotConfig blankRepository run.after := by
  have completed := blankRun_computed.1.1
  have rest := blankRun_computed.1.2
  have before := blankRun_computed.2.1.1
  have after := blankRun_computed.2.1.2
  have wrecked := blankRun_computed.2.2
  refine ⟨blankRun, hostRun_valid _ _ _, completed, ?_, ?_, ?_⟩
  · have listed : ∀ moment ∈ blankRun.moments, Lists blankRepository moment := by
      apply host_lists
      intro before after path different
      have lines : readLines "ansible/playbooks/a.yml\nansible/roles/a /meta\n" =
          ["ansible/playbooks/a.yml", "ansible/roles/a /meta"] := by decide
      suffices member : path ∈ ["ansible/playbooks/a.yml", "ansible/roles/a /meta"] by
        rw [← lines] at member
        exact member
      by_contra unlisted
      simp only [List.mem_cons, List.not_mem_nil, or_false] at unlisted
      apply different
      simp [blankRepository, unlisted]
    intro moment member
    exact ideal_of_answered (listed moment member)
      (List.all_eq_true.mp rest moment member)
  · have live : blankRun.before.runtime =
        content pilotConfig.rules (blankRepository.files "1") := by
      simp only [blankRun, hostRun, blankWorld]
    intro target managed
    rw [before, live]
  · intro converged
    have managed : Managed (csv pilotConfig.allowlist) (csv pilotConfig.neverAuto)
        "a " := by decide
    have same := congrFun (converged "a " managed) "ansible/roles/a /meta"
    rw [after, wrecked] at same
    have present : content pilotConfig.rules (blankRepository.files "1") "a "
        "ansible/roles/a /meta" = some "1" := by decide +kernel
    rw [present] at same
    cases same

end Homelab.Autodeploy
