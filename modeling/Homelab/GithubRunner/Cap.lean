import Homelab.GithubRunner.Host
import Mathlib.Data.Finset.Card

/-! # The cap on the runners

The supervisor starts a runner if `docker ps` shows fewer than it may run. Whether
`docker ps` worked is not looked at.
-/

namespace Homelab.GithubRunner

open Effects Python

def AtMost (cap : Int) (world : World) : Prop := (world.live.card : Int) ≤ cap

/-- Asked for the running containers while there is no room for another one,
`docker ps` prints as many lines as that takes. -/
def ShowsFull (cap : Int) (moment : Moment interface World) : Prop :=
  ∀ before completed after,
    moment = ⟨before, .docker .listRunning, .ok completed, after⟩ →
    cap ≤ before.live.card → cap ≤ (rows completed.stdout).length

/-- There is room for another container if fewer than the cap were listed. -/
def Room (cap : Int) (liveTotal : Nat) (world : World) : Prop :=
  AtMost cap world ∧ ((liveTotal : Int) < cap → AtMost (cap - 1) world)

section

variable {cfg : Config} {cap : Int} {past : Past interface World} {world after : World}
  {α : Type}

theorem AtMost.of_subset (bounded : AtMost cap world) (subset : after.live ⊆ world.live) :
    AtMost cap after := by
  have fewer := Finset.card_le_card subset
  unfold AtMost at bounded ⊢
  omega

theorem AtMost.loosen (room : AtMost (cap - 1) world) : AtMost cap world := by
  unfold AtMost at room ⊢
  omega

/-- Only `docker run` starts a container. -/
theorem started_eq_empty {operation : Operation}
    (quiet : Of [.plain, .registers, .accounts] operation) : started operation = ∅ := by
  cases operation with
  | docker call =>
      cases call with
      | run name repo jit sockGid image => simp [Of, Operation.kind] at quiet
      | _ => rfl
  | _ => rfl

theorem live_subset {operation : Operation} {answer : Answer operation}
    (quiet : Of [.plain, .registers, .accounts] operation)
    (step : system.Step world operation answer after) : after.live ⊆ world.live := by
  have living := HostStep.living step
  rw [started_eq_empty quiet, Finset.union_empty] at living
  exact living

/-- The rules of the host, if `docker ps` shows a full house. -/
abbrev shown (cap : Int) : System interface World := system.restrict (ShowsFull cap)

abbrev Capped (cap : Int) (post : World → α → Prop) (attempt : Py α)
    (past : Past interface World) (world : World) : Prop :=
  Attempt.Guarded (shown cap) (fun _ moment => AtMost cap moment.after)
    (fun _ world result => post world result) (fun _ world _ => AtMost cap world) attempt
    past world

/-- What containers that end keep is kept by all but `docker run`. -/
theorem quiet_keeps {inv : World → Prop} (bounded : ∀ world, inv world → AtMost cap world)
    (shrinks : ∀ world after, inv world → after.live ⊆ world.live → inv after) :
    Keeps (shown cap) (Of [.plain, .registers, .accounts])
      (fun _ moment => AtMost cap moment.after) (fun _ world => inv world) := by
  intro past world operation answer after quiet step holds
  have kept := shrinks world after holds (live_subset quiet step.1)
  exact ⟨bounded after kept, kept⟩

theorem Room.shrinks {liveTotal : Nat} (room : Room cap liveTotal world)
    (subset : after.live ⊆ world.live) : Room cap liveTotal after :=
  ⟨room.1.of_subset subset, fun fewer => (room.2 fewer).of_subset subset⟩

theorem bounded_keeps : Keeps (shown cap) (Of [.plain, .registers, .accounts])
    (fun _ moment => AtMost cap moment.after) (fun _ world => AtMost cap world) :=
  quiet_keeps (fun _ bounded => bounded) fun _ _ bounded => bounded.of_subset

theorem capped_of_within {inv : World → Prop} {attempt : Py α}
    (within : attempt.Within (Of [.plain, .registers, .accounts]))
    (bounded : ∀ world, inv world → AtMost cap world)
    (shrinks : ∀ world after, inv world → after.live ⊆ world.live → inv after)
    (start : inv world) : Capped cap (fun world _ => inv world) attempt past world := by
  apply Attempt.mono (within.guarded (quiet_keeps bounded shrinks) start)
  · exact fun _ _ _ holds => holds
  · exact fun _ world _ holds => bounded world holds

theorem atMost_of_within {attempt : Py α}
    (within : attempt.Within (Of [.plain, .registers, .accounts]))
    (start : AtMost cap world) :
    Capped cap (fun world _ => AtMost cap world) attempt past world :=
  capped_of_within within (fun _ holds => holds)
    (fun _ _ holds subset => holds.of_subset subset) start

theorem free_of_within {attempt : Py α}
    (within : attempt.Within (Of [.plain, .registers, .accounts]))
    (start : AtMost (cap - 1) world) :
    Capped cap (fun world _ => AtMost (cap - 1) world) attempt past world :=
  capped_of_within within (fun _ free => free.loosen)
    (fun _ _ free subset => free.of_subset subset) start

theorem room_of_within {liveTotal : Nat} {attempt : Py α}
    (within : attempt.Within (Of [.plain, .registers, .accounts]))
    (start : Room cap liveTotal world) :
    Capped cap (fun world _ => Room cap liveTotal world) attempt past world :=
  capped_of_within within (fun _ room => room.1)
    (fun _ _ room subset => room.shrinks subset) start

theorem runningJobContainers_room (start : AtMost cap world) :
    Capped cap (fun world live => Room cap live.length world) runningJobContainers past
      world := by
  have listed : Capped cap (fun world out => Room cap (rows out.stdout).length world)
      (docker .listRunning) past world := by
    apply docker_iff.mpr
    intro answer after step
    have kept := start.of_subset (live_subset (by decide) step.1)
    refine ⟨kept, ?_⟩
    cases answer with
    | error raised => exact kept
    | ok out =>
        refine ⟨kept, fun fewer => ?_⟩
        have full := step.2 world out after rfl
        have subset := Finset.card_le_card (live_subset (by decide) step.1)
        unfold AtMost
        omega
  exact Attempt.bind listed fun _ _ _ room => room

theorem spawnRunner_capped (repo : String) (jit : Value) (room : AtMost (cap - 1) world) :
    Capped cap (fun world _ => AtMost cap world) (spawnRunner cfg repo jit) past world := by
  apply ask_bind.mpr
  intro hex world₁ step₁
  have room₁ := room.of_subset (live_subset (by decide) step₁.1)
  refine ⟨room₁.loosen, ask_bind.mpr ?_⟩
  intro sockGid world₂ step₂
  have room₂ := room₁.of_subset (live_subset (by decide) step₂.1)
  refine ⟨room₂.loosen, ?_⟩
  have spawned : Capped cap (fun world _ => AtMost cap world)
      (docker (.run (runnerName repo hex) repo jit sockGid cfg.runnerImage))
      (⟨world₁, .sockGid, sockGid, world₂⟩ :: ⟨world, .uuid, hex, world₁⟩ :: past)
      world₂ := by
    apply docker_iff.mpr
    intro answer after step
    have bounded : AtMost cap after := by
      have fewer := Finset.card_le_card (HostStep.living step.1)
      have added := Finset.card_union_le world₂.live {runnerName repo hex}
      rw [Finset.card_singleton] at added
      unfold AtMost at room₂ ⊢
      simp only [started] at fewer
      omega
    exact ⟨bounded, by cases answer <;> exact bounded⟩
  exact Attempt.bind spawned fun _ _ _ bounded => bounded

theorem maybeSpawn_capped (perRepo : Table String RepoStatus) {liveTotal : Nat}
    (room : Room cfg.maxConcurrentGlobal liveTotal world) :
    Capped cfg.maxConcurrentGlobal (fun world _ => AtMost cfg.maxConcurrentGlobal world)
      (maybeSpawn cfg perRepo liveTotal) past world := by
  unfold maybeSpawn
  split
  · exact room.1
  · next fewer =>
      have free := room.2 (not_le.mp fewer)
      split
      · exact room.1
      · apply Attempt.bind
          (free_of_within (Of.wider (generateJitConfig_within _) (by decide)) free)
        intro past world jit free
        split
        · exact Attempt.bind (spawnRunner_capped _ jit free) fun _ _ _ bounded => bounded
        · exact free.loosen

theorem tick_capped (start : AtMost cfg.maxConcurrentGlobal world) :
    Capped cfg.maxConcurrentGlobal (fun world _ => AtMost cfg.maxConcurrentGlobal world)
      (tick cfg) past world := by
  apply Attempt.bind (atMost_of_within (Of.wider inspectRunnerImage_within (by decide)) start)
  intro past₁ world₁ _ bounded₁
  apply Attempt.bind
    (atMost_of_within (Of.wider reapExitedContainers_within (by decide)) bounded₁)
  intro past₂ world₂ orphans bounded₂
  apply Attempt.bind (runningJobContainers_room bounded₂)
  intro past₃ world₃ live room₃
  apply Attempt.bind (room_of_within (Of.wider (survey_within _ _ _) (by decide)) room₃)
  intro past₄ world₄ perRepo room₄
  apply Attempt.bind (maybeSpawn_capped perRepo room₄)
  intro past₅ world₅ _ bounded₅
  exact atMost_of_within (Of.wider (writeStatus_within _ _ _) (by decide)) bounded₅

end

/-- No more job containers are ever live than may, in every run in which `docker ps`
shows as many as that when there is no room. -/
theorem concurrency_capped {cfg : Config} {world : World} (run : SupervisorRun cfg world)
    (initially : AtMost cfg.maxConcurrentGlobal world)
    (shows : ∀ moment ∈ run.trace, ShowsFull cfg.maxConcurrentGlobal moment) :
    ∀ moment ∈ run.trace, AtMost cfg.maxConcurrentGlobal moment.after :=
  LoopRun.trace_good (fun _ _ world => AtMost cfg.maxConcurrentGlobal world)
    (fun past phase world bounded => Attempt.any_error
      (run_preserves (bounded_keeps.mono fun _ plain => Of.mono plain (by decide))
        (.of_always fun _ _ => tick_capped) phase past world bounded)) initially
    (run.restrict shows)

/-! ## Two pilots -/

/-- One container runs already, which is as many as may. -/
def fullWorld : World := { pilotWorld with live := {"x"} }

/-- GitHub wants a runner, and this is what `docker ps` does. -/
def listing (running : Except Exception Completed) : Script where
  docker
    | .listRunning => running
    | .imageInspect _ => exits 1 ""
    | _ => exits 0 ""
  github
    | .generateJit _ _ _ _ => responds 201 [("encoded_jit_config", .str "j")]
    | _ => responds 200 []

def listed (running : Except Exception Completed) :
    SupervisorRun pilotConfig fullWorld :=
  follow .begin (listing running)

theorem concurrency_capped_pilot :
    AtMost 1 fullWorld ∧ ∀ moment ∈ (listed (exits 0 "x|a")).trace, AtMost 1 moment.after := by
  have initially : AtMost 1 fullWorld := le_refl (1 : Int)
  refine ⟨initially, ?_⟩
  apply concurrency_capped
  · exact initially
  · apply simulate_each
    intro past world operation before completed after same
    cases operation with
    | docker call =>
        cases call with
        | listRunning =>
            injection same with _ _ answered
            cases answered
            exact fun _ => by decide +kernel
        | _ => injection same with _ asked; cases asked
    | _ => injection same with _ asked; cases asked

/-- A `docker ps` that fails is taken for one that shows nothing. -/
theorem cap_exceeded : ∃ run : SupervisorRun pilotConfig fullWorld,
    AtMost pilotConfig.maxConcurrentGlobal fullWorld ∧
      ¬∀ moment ∈ run.trace, AtMost pilotConfig.maxConcurrentGlobal moment.after := by
  refine ⟨listed (exits 1 ""), le_refl (1 : Int), ?_⟩
  have crowded : ∃ moment ∈ (listed (exits 1 "")).moments, 1 < (moment.after.live.card : Int) := by
    decide +kernel
  intro bounded
  rcases crowded with ⟨moment, member, crowded⟩
  exact absurd (bounded moment (List.mem_append_right _ member)) (not_le.mpr crowded)

end Homelab.GithubRunner
