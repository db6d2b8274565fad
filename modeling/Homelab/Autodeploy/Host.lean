import Homelab.Autodeploy.Deploy

/-! # A host that answers by a fixed choice

Where the system leaves an answer open, the host takes the chosen one; what the
system determines it computes. A failed reset changes nothing here, and a failed
deploy leaves nothing of its target.
-/

namespace Homelab.Autodeploy

open Effects Text

abbrev Choice := (operation : Operation) → Answer operation

def World.settle (cfg : Config) (repo : Repository) (world : World) :
    (operation : Operation) → Answer operation → World
  | .stateSet command, (true : Bool) =>
      match world.state.load.bind command.apply with
      | some state => { world with state := .document state }
      | none => world
  | .gitReset sha, (true : Bool) =>
      { world with checkout := ⟨sha, repo.files sha⟩ }
  | .ansible .apply target, (status : Nat) =>
      let live := if status = 0 then content cfg.rules world.checkout.files target
        else fun _ => none
      { world with runtime := Function.update world.runtime target live }
  | .writeMetrics now runOk, (true : Bool) =>
      match world.state.load with
      | some state => { world with metrics := some (renderMetrics state now runOk) }
      | none => world
  | _, _ => world

/-- What the host replies: computed, refused where there is nothing to write, or
chosen. -/
def World.reply (cfg : Config) (world : World) (choose : Choice) :
    (operation : Operation) → Answer operation
  | .lastGood => world.state.lastGood
  | .needsDeploy sha =>
      match world.state.load with
      | some state => needsDeploy state sha
      | none => false
  | .stateSet command =>
      (world.state.load.bind command.apply).isSome && choose (.stateSet command)
  | .plan changed =>
      printLines (planTargets cfg.rules (csv cfg.allowlist) (csv cfg.neverAuto) changed)
  | .planSkipped changed =>
      printLines (planSkipped cfg.rules (csv cfg.allowlist) (csv cfg.neverAuto) changed)
  | .rollbackTargets failed targets => printLines (rollbackTargets targets failed)
  | .playbook target => hasPlaybook world.checkout.files target
  | .writeMetrics now runOk =>
      world.state.load.isSome && choose (.writeMetrics now runOk)
  | operation => choose operation

def host (cfg : Config) (repo : Repository) (choose : Choice) :
    Oracle interface World := fun _ world operation =>
  (world.reply cfg choose operation,
    world.settle cfg repo operation (world.reply cfg choose operation))

variable {cfg : Config} {repo : Repository}

theorem host_permitted (choose : Choice) :
    Permitted (system cfg repo) (host cfg repo choose) := by
  intro past world operation
  cases operation with
  | stateSet command =>
      simp only [host, World.reply]
      cases computed : world.state.load.bind command.apply with
      | none => exact rfl
      | some state =>
          cases written : choose (.stateSet command) with
          | false => exact rfl
          | true => exact ⟨state, computed, by simp [World.settle, computed]⟩
  | gitReset sha =>
      simp only [host, World.reply]
      cases reset : choose (.gitReset sha) with
      | false => exact ⟨world.checkout, rfl⟩
      | true => exact rfl
  | ansible stage target =>
      cases stage with
      | apply =>
          simp only [host, World.reply]
          generalize choose (.ansible .apply target) = status
          change Nat at status
          exact ⟨_, rfl, fun succeeded => if_pos succeeded⟩
      | _ => exact rfl
  | writeMetrics now runOk =>
      simp only [host, World.reply]
      cases loaded : world.state.load with
      | none => exact rfl
      | some state =>
          cases written : choose (.writeMetrics now runOk) with
          | false => exact rfl
          | true => exact ⟨state, loaded, by simp [World.settle, loaded]⟩
  | lastGood => exact ⟨rfl, rfl⟩
  | needsDeploy => exact ⟨rfl, rfl⟩
  | plan => exact ⟨rfl, rfl⟩
  | planSkipped => exact ⟨rfl, rfl⟩
  | rollbackTargets => exact ⟨rfl, rfl⟩
  | playbook => exact ⟨rfl, rfl⟩
  | _ => exact rfl

/-- Every command succeeds, the newest tag is at `commit`, and `diff` is what git
lists. -/
def willing (commit diff : String) : (operation : Operation) → Answer operation
  | .newestTag => "deploy-v1"
  | .revParse _ => commit
  | .lastGood => ""
  | .headSha => commit
  | .denylistMarker _ => ""
  | .denylistDiff _ _ => ⟨true, ""⟩
  | .ciConclusion _ => "success"
  | .lfsPull => .pulled
  | .gitDiff _ _ => diff
  | .plan _ => ""
  | .planSkipped _ => ""
  | .rollbackTargets _ _ => ""
  | .ansible _ _ => (0 : Nat)
  | .now => (0 : Int)
  | .sleep _ => ()
  | .log _ => ()
  | .notify _ _ _ => ()
  | .flock | .cdRepo | .gitFetch | .textfileDir | .writeDrift _ | .needsDeploy _
  | .denylistPlan _ _ | .stateSet _ | .gitReset _ | .playbook _
  | .writeMetrics _ _ => true

def hostRun (cfg : Config) (repo : Repository) (choose : Choice) (world : World)
    (fuel : Nat) : CdRun :=
  let run := simulate (host cfg repo choose) fuel (controller cfg).run [] world
  ⟨(), world, run.1, run.2.1, run.2.2⟩

theorem hostRun_valid (choose : Choice) (world : World) (fuel : Nat) :
    (hostRun cfg repo choose world fuel).Valid (system cfg repo)
      (fun _ => (controller cfg).run) :=
  simulate_executes (host_permitted choose) _ _ _ _

/-! ## A host with one target -/

def pilotConfig : Config where
  repoDir := "/opt/homelab"
  rules := ⟨⟨[], by simp⟩, []⟩
  allowlist := ""
  neverAuto := ""
  ciToken := ""
  ntfyUrl := ""
  notifyProgress := false
  deployTagGlob := "deploy-v*"

/-- The role's tasks are different in every commit. -/
def pilotRepository : Repository where
  files commit path :=
    if path = "ansible/playbooks/homepage.yml" then some "- hosts: all"
    else if path = "ansible/roles/homepage/tasks/main.yml" then some commit
    else none

/-- The commit is deployed and recorded. -/
def pilotWorld (commit : String) : World where
  state := .document (onSuccess ∅ commit 0)
  metrics := none
  checkout := ⟨commit, pilotRepository.files commit⟩
  runtime := content pilotConfig.rules (pilotRepository.files commit)

def pilotRun (choose : Choice) (world : World) (fuel : Nat) : CdRun :=
  hostRun pilotConfig pilotRepository choose world fuel

theorem pilotRun_valid (choose : Choice) (world : World) (fuel : Nat) :
    (pilotRun choose world fuel).Valid (system pilotConfig pilotRepository)
      (fun _ => (controller pilotConfig).run) :=
  hostRun_valid choose world fuel

end Homelab.Autodeploy
