import Homelab.Autodeploy.Gate

/-! # Deploying one target

The rule for `deploy_target`. Its three attempts come down to one condition on
the single ansible command, and a zero status to one on the command that
applied the playbook.
-/

namespace Homelab.Autodeploy

open Effects

variable {cfg : Config} {repo : Repository} {keep : Moment interface World → Prop}
  {good : Past interface World → Moment interface World → Prop}
  {inv deployed : Past interface World → World → Prop}
  {failed : Past interface World → World → Nat → Prop} {target : String}
  {past : Past interface World} {world : World}

/-! ## Parts of the script that leave the state file alone -/

def Operation.stateless : Operation → Prop
  | .stateSet _ => False
  | _ => True

/-- What deploying takes, with the reports about it. -/
def Operation.working : Operation → Prop
  | .playbook _ => True
  | .ansible _ _ => True
  | .sleep _ => True
  | operation => operation.reporting

theorem Operation.aside.stateless {operation : Operation} (aside : operation.aside) :
    operation.stateless := by
  cases operation <;> trivial

theorem Operation.working.stateless {operation : Operation}
    (working : operation.working) : operation.stateless := by
  cases operation <;> trivial

theorem Operation.reporting.working {operation : Operation}
    (reporting : operation.reporting) : operation.working := by
  cases operation <;> trivial

theorem stateless_of_aside {α : Type} {attempt : Sh α}
    (steady : attempt.Steady Operation.aside) :
    attempt.Steady Operation.stateless :=
  steady.mono fun _ aside => aside.stateless

theorem stateless_of_working {α : Type} {attempt : Sh α}
    (steady : attempt.Steady Operation.working) :
    attempt.Steady Operation.stateless :=
  steady.mono fun _ working => working.stateless

theorem finish_stateless {α : Type} (runOk : Bool) (status : Nat) :
    (finish runOk status : Sh α).Within Operation.stateless :=
  (finish_within runOk status).mono fun _ aside => aside.stateless

theorem log_working (message : Message) : (log message).Steady Operation.working :=
  (log_reporting message).mono fun _ reporting => reporting.working

theorem notify_working (message : Message) (priority tags : String) :
    (notify cfg message priority tags).Steady Operation.working :=
  (notify_reporting message priority tags).mono fun _ reporting => reporting.working

theorem progress_working (message : Message) (priority tags : String) :
    (progress cfg message priority tags).Steady Operation.working :=
  (progress_reporting message priority tags).mono fun _ reporting => reporting.working

theorem deployOnce_steady (target : String) :
    (deployOnce target).Steady Operation.working := by
  apply Attempt.Steady.bind (ask_steady trivial)
  intro syntaxStatus
  split
  · exact Attempt.steady_pure _
  · apply Attempt.Steady.bind (ask_steady trivial)
    intro checkStatus
    split
    · exact Attempt.steady_pure _
    · exact ask_steady trivial

theorem deployRetry_steady (target : String) (attempts : List Nat) (status : Nat) :
    (deployRetry target attempts status).Steady Operation.working := by
  induction attempts generalizing status with
  | nil => exact Attempt.steady_pure _
  | cons attempt rest induction =>
      apply Attempt.Steady.bind (deployOnce_steady target)
      intro rc
      split
      · exact Attempt.steady_pure _
      · apply Attempt.Steady.bind (log_working _)
        intro _
        dsimp only
        split
        · exact Attempt.Steady.bind (ask_steady trivial) fun _ => induction _
        · exact induction _

theorem deployTarget_steady (target : String) :
    (deployTarget target).Steady Operation.working := by
  apply Attempt.Steady.bind (ask_steady trivial)
  intro present
  split
  · exact deployRetry_steady target _ _
  · apply Attempt.Steady.bind (log_working _)
    exact fun _ => Attempt.steady_pure _

theorem deployAll_steady (targets : List String) :
    (deployAll cfg targets).Steady Operation.working := by
  induction targets with
  | nil => exact Attempt.steady_pure _
  | cons target rest induction =>
      apply Attempt.Steady.bind (progress_working _ _ _)
      intro _
      apply Attempt.Steady.bind (deployTarget_steady target)
      intro rc
      split
      · apply Attempt.Steady.bind (progress_working _ _ _)
        exact fun _ => induction
      · apply Attempt.Steady.bind (log_working _)
        intro _
        apply Attempt.Steady.bind (notify_working _ _ _)
        exact fun _ => Attempt.steady_pure _

theorem restoreAll_steady (targets : List String) (rbFail : String) :
    (restoreAll cfg targets rbFail).Steady Operation.working := by
  induction targets generalizing rbFail with
  | nil => exact Attempt.steady_pure _
  | cons target rest induction =>
      apply Attempt.Steady.bind (notify_working _ _ _)
      intro _
      apply Attempt.Steady.bind (deployTarget_steady target)
      exact fun rc => induction _

theorem checkout_steady (sha : String) : (checkout sha).Steady Operation.stateless := by
  apply Attempt.Steady.bind (ask_steady trivial)
  exact fun _ => stateless_of_aside lfsPull_steady

theorem reportRollback_steady (job : Job) (rbFail : String) :
    (reportRollback cfg job rbFail).Steady Operation.aside := by
  unfold reportRollback
  split
  · exact Attempt.Steady.bind (notify_steady _ _ _) fun _ => log_steady _
  · exact Attempt.Steady.bind (notify_steady _ _ _) fun _ => log_steady _

/-! ## The rule for one target -/

/-- What one target's deploy is allowed to do, and when the target is deployed. -/
structure Deploys (system' : System interface World) (target : String)
    (good : Past interface World → Moment interface World → Prop)
    (inv deployed : Past interface World → World → Prop) : Prop where
  aside : Keeps system' Operation.aside good inv
  playbook : ∀ past world answer after,
    system'.Step world (.playbook target) answer after → inv past world →
    good past ⟨world, .playbook target, answer, after⟩ ∧
      inv (⟨world, .playbook target, answer, after⟩ :: past) after
  ansible : ∀ past world stage answer after,
    system'.Step world (.ansible stage target) answer after →
    hasPlaybook world.checkout.files target = true → inv past world →
    good past ⟨world, .ansible stage target, answer, after⟩ ∧
      inv (⟨world, .ansible stage target, answer, after⟩ :: past) after
  applied : ∀ past world after,
    system'.Step world (.ansible .apply target) (0 : Nat) after →
    hasPlaybook world.checkout.files target = true → inv past world →
    deployed (⟨world, .ansible .apply target, (0 : Nat), after⟩ :: past) after
  absent : ∀ before past world, system'.Step before (.playbook target) false before →
    ⟨before, .playbook target, false, before⟩ ∈ past →
    hasPlaybook world.checkout.files target = false → inv past world →
    deployed past world

theorem system_ansible {world after : World} {stage : Stage} {answer : Nat}
    (step : (system cfg repo).Step world (.ansible stage target) answer after) :
    after.state = world.state ∧ after.checkout = world.checkout ∧
      after.metrics = world.metrics := by
  cases stage with
  | apply =>
      rcases step with ⟨live, rfl, _⟩
      exact ⟨rfl, rfl, rfl⟩
  | syntaxCheck =>
      have same : after = world := step
      exact ⟨same ▸ rfl, same ▸ rfl, same ▸ rfl⟩
  | check =>
      have same : after = world := step
      exact ⟨same ▸ rfl, same ▸ rfl, same ▸ rfl⟩

section

variable (deploys : Deploys ((system cfg repo).restrict keep) target good inv deployed)
include deploys

/-- What holds around an attempt: the playbook stays where it is. -/
theorem deployOnce_guarded
    (present : hasPlaybook world.checkout.files target = true)
    (holds : inv past world) :
    Attempt.Guarded ((system cfg repo).restrict keep) good
      (fun past after rc => (inv past after ∧
        hasPlaybook after.checkout.files target = true) ∧
          (rc = 0 → deployed past after)) failed (deployOnce target) past world := by
  have next {past world stage answer after}
      (step : ((system cfg repo).restrict keep).Step world (.ansible stage target)
        answer after)
      (present : hasPlaybook world.checkout.files target = true)
      (holds : inv past world) :=
    And.intro (deploys.ansible past world stage answer after step present holds)
      (show hasPlaybook after.checkout.files target = true by
        rw [(system_ansible step.1).2.1]
        exact present)
  apply ask_bind.mpr
  intro syntaxStatus world₁ step₁
  have ⟨⟨now₁, inv₁⟩, present₁⟩ := next step₁ present holds
  refine ⟨now₁, ?_⟩
  change Nat at syntaxStatus
  by_cases bad : syntaxStatus ≠ 0
  · rw [if_pos bad]
    exact ⟨⟨inv₁, present₁⟩, fun impossible => absurd impossible bad⟩
  rw [if_neg bad]
  apply ask_bind.mpr
  intro checkStatus world₂ step₂
  have ⟨⟨now₂, inv₂⟩, present₂⟩ := next step₂ present₁ inv₁
  refine ⟨now₂, ?_⟩
  change Nat at checkStatus
  by_cases bad : checkStatus ≠ 0
  · rw [if_pos bad]
    exact ⟨⟨inv₂, present₂⟩, fun impossible => absurd impossible bad⟩
  rw [if_neg bad]
  apply Attempt.lift_iff.mpr
  intro applyStatus world₃ step₃
  have ⟨⟨now₃, inv₃⟩, present₃⟩ := next step₃ present₂ inv₂
  refine ⟨now₃, ⟨inv₃, present₃⟩, ?_⟩
  intro succeeded
  change Nat at applyStatus
  subst succeeded
  exact deploys.applied _ world₂ world₃ step₃ present₂ inv₂

theorem deployRetry_guarded {attempts : List Nat} {status : Nat}
    (failing : status ≠ 0)
    (present : hasPlaybook world.checkout.files target = true)
    (holds : inv past world) :
    Attempt.Guarded ((system cfg repo).restrict keep) good
      (fun past after rc => inv past after ∧ (rc = 0 → deployed past after)) failed
      (deployRetry target attempts status) past world := by
  induction attempts generalizing status past world with
  | nil => exact ⟨holds, fun impossible => absurd impossible failing⟩
  | cons attempt rest induction =>
      apply Attempt.bind (deployOnce_guarded deploys present holds)
      intro past₁ world₁ rc ⟨⟨inv₁, present₁⟩, done⟩
      by_cases succeeded : rc = 0
      · rw [if_pos succeeded]
        exact ⟨inv₁, fun _ => done succeeded⟩
      rw [if_neg succeeded]
      apply aside_bind deploys.aside (log_steady _) inv₁
      intro past₂ world₂ _ inv₂ same₂
      have present₂ : hasPlaybook world₂.checkout.files target = true := by
        rw [same₂.checkout]
        exact present₁
      dsimp only
      split
      · have pause : (ask (.sleep (attempt * 20))).Steady Operation.aside :=
          ask_steady trivial
        apply aside_bind deploys.aside pause inv₂
        intro past₃ world₃ _ inv₃ same₃
        apply induction succeeded _ inv₃
        rw [same₃.checkout]
        exact present₂
      · exact induction succeeded present₂ inv₂

theorem deployTarget_guarded (holds : inv past world) :
    Attempt.Guarded ((system cfg repo).restrict keep) good
      (fun past after rc => inv past after ∧ (rc = 0 → deployed past after)) failed
      (deployTarget target) past world := by
  apply ask_bind.mpr
  intro present after step
  have ⟨now, inv₁⟩ := deploys.playbook past world present after step holds
  refine ⟨now, ?_⟩
  obtain rfl : after = world := step.1.1
  have found := step.1.2
  change Bool at present
  cases present with
  | true => exact deployRetry_guarded deploys (by decide) found.symm inv₁
  | false =>
      apply aside_bind deploys.aside.remember (log_steady _) ⟨inv₁, List.mem_cons_self⟩
      intro past₂ world₂ _ ⟨inv₂, probed⟩ same
      refine ⟨inv₂, fun _ => deploys.absent _ _ _ step probed ?_ inv₂⟩
      rw [same.checkout]
      exact found.symm

end

/-! ## The loops -/

section

variable {targets done : List String}
  (before : List String → Past interface World → World → Prop)
  (during : String → List String → Past interface World → World → Prop)

/-- The deploy loop: `before done` holds between two targets when `done` are
deployed, `during target done` while a target is tried. -/
theorem deployAll_guarded (nodup : targets.Nodup)
    (fresh : ∀ target ∈ targets, target ∉ done)
    (between : ∀ done, Keeps ((system cfg repo).restrict keep) Operation.aside good
      (before done))
    (starts : ∀ target done past world, before done past world →
      during target done past world)
    (deploys : ∀ target ∈ targets, ∀ done, target ∉ done →
      Deploys ((system cfg repo).restrict keep) target good (during target done)
        (before (target :: done)))
    (holds : before done past world) :
    Attempt.Guarded ((system cfg repo).restrict keep) good
      (fun past world failed =>
        match failed with
        | none => before (targets.reverse ++ done) past world
        | some target => ∃ tried rest, targets = tried ++ target :: rest ∧
            during target (tried.reverse ++ done) past world)
      failed (deployAll cfg targets) past world := by
  induction targets generalizing done past world with
  | nil => exact holds
  | cons target rest induction =>
      have ⟨notRest, nodupRest⟩ := List.nodup_cons.mp nodup
      have rule := deploys target List.mem_cons_self done (fresh target List.mem_cons_self)
      apply aside_bind (between done) (progress_steady _ _ _) holds
      intro past₁ world₁ _ holds₁ _
      apply Attempt.bind (deployTarget_guarded rule (starts target done _ _ holds₁))
      intro past₂ world₂ rc ⟨during₂, deployed⟩
      by_cases succeeded : rc = 0
      · rw [if_pos succeeded]
        apply aside_bind (between _) (progress_steady _ _ _) (deployed succeeded)
        intro past₃ world₃ _ holds₃ _
        have freshRest : ∀ other ∈ rest, other ∉ target :: done := by
          intro other member
          rw [List.mem_cons, not_or]
          refine ⟨fun same => notRest (same ▸ member), ?_⟩
          exact fresh other (List.mem_cons_of_mem _ member)
        apply Attempt.result_mono (induction nodupRest freshRest
          (fun other member => deploys other (List.mem_cons_of_mem _ member)) holds₃)
        intro past₄ world₄ failed ended
        cases failed with
        | none => simpa using ended
        | some failed =>
            rcases ended with ⟨tried, later, rfl, during₄⟩
            exact ⟨target :: tried, later, rfl, by simpa using during₄⟩
      · rw [if_neg succeeded]
        apply aside_bind rule.aside (log_steady _) during₂
        intro past₃ world₃ _ during₃ _
        apply aside_bind rule.aside (notify_steady _ _ _) during₃
        intro past₄ world₄ _ during₄ _
        exact ⟨[], rest, rfl, during₄⟩

/-- The restore loop goes on after a failure; it answers the empty word only if
every target was restored. -/
theorem restoreAll_guarded {rbFail : String} (nodup : targets.Nodup)
    (words : ∀ target ∈ targets, target ≠ "")
    (fresh : ∀ target ∈ targets, target ∉ done)
    (deploys : ∀ target ∈ targets, ∀ done, target ∉ done →
      Deploys ((system cfg repo).restrict keep) target good (before done)
        (before (target :: done)))
    (holds : before done past world) :
    Attempt.Guarded ((system cfg repo).restrict keep) good
      (fun past world rbFail' => ∃ restored, before restored past world ∧
        (rbFail' = "" → rbFail = "" ∧ ∀ target, target ∈ targets ∨ target ∈ done →
          target ∈ restored))
      failed (restoreAll cfg targets rbFail) past world := by
  induction targets generalizing done rbFail past world with
  | nil => exact ⟨done, holds, fun succeeded => ⟨succeeded, by simp⟩⟩
  | cons target rest induction =>
      have ⟨notRest, nodupRest⟩ := List.nodup_cons.mp nodup
      have rule := deploys target List.mem_cons_self done (fresh target List.mem_cons_self)
      apply aside_bind rule.aside (notify_steady _ _ _) holds
      intro past₁ world₁ _ holds₁ _
      apply Attempt.bind (deployTarget_guarded rule holds₁)
      intro past₂ world₂ rc ⟨holds₂, deployed⟩
      have wordsRest : ∀ other ∈ rest, other ≠ "" :=
        fun other member => words other (List.mem_cons_of_mem _ member)
      have deploysRest := fun other (member : other ∈ rest) =>
        deploys other (List.mem_cons_of_mem _ member)
      have freshRest : ∀ other ∈ rest, other ∉ done :=
        fun other member => fresh other (List.mem_cons_of_mem _ member)
      by_cases succeeded : rc = 0
      · rw [if_pos succeeded]
        have freshNext : ∀ other ∈ rest, other ∉ target :: done := by
          intro other member
          rw [List.mem_cons, not_or]
          exact ⟨fun same => notRest (same ▸ member), freshRest other member⟩
        apply Attempt.result_mono (induction nodupRest wordsRest freshNext deploysRest
          (deployed succeeded))
        rintro past₃ world₃ rbFail' ⟨restored, holds₃, all⟩
        refine ⟨restored, holds₃, fun none => ⟨(all none).1, ?_⟩⟩
        intro other member
        apply (all none).2
        simp only [List.mem_cons] at member ⊢
        tauto
      · rw [if_neg succeeded]
        apply Attempt.result_mono
          (induction nodupRest wordsRest freshRest deploysRest holds₂)
        rintro past₃ world₃ rbFail' ⟨restored, holds₃, all⟩
        refine ⟨restored, holds₃, fun none => ?_⟩
        exact absurd (all none).1 (words target List.mem_cons_self)

end

end Homelab.Autodeploy
