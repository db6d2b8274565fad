import Homelab.Autodeploy.Planner
import Homelab.Autodeploy.State
import Homelab.Effects.Attempt
import Homelab.Effects.History

/-! # One run of the CD controller

The script `homelab-autodeploy.sh`, with every file and command it touches as an
operation.
-/

namespace Homelab.Autodeploy

open Effects Text

structure Config where
  repoDir : String
  rules : Rules
  allowlist : String
  neverAuto : String
  ciToken : String
  ntfyUrl : String
  notifyProgress : Bool
  deployTagGlob : String

def Config.neverAutoArr (cfg : Config) : List String :=
  readLines (printLines [replace ',' '\n' cfg.neverAuto])

/-! ## Messages -/

inductive Message
  | anotherRun
  | repoMissing (dir : String)
  | fetchFailed
  | noTag (glob : String)
  | unresolved (tag : String)
  | alreadyHandled (tag sha : String)
  | evaluating (tag sha : String)
  | ciHolding (conclusion sha : String)
  | ciNotGreen (sha conclusion : String)
  | ciGreen (sha : String)
  | lfsAbsent
  | lfsFailed
  | checkedOut (tag sha lastGood : String)
  | heldForManual (skipped : List String)
  | heldOutside (sha : String) (skipped : List String)
  | nothingDeployable (lastGood sha : String)
  | noChanges (sha : String)
  | deployPlan (targets : List String)
  | deploying (sha : String) (targets skipped : List String)
  | noPlaybook (target : String)
  | attemptFailed (target : String) (attempt rc : Nat)
  | targetStarts (target : String)
  | targetDeployed (target : String)
  | deployFailed (target : String)
  | rollingBack (target : String)
  | deployOk (sha : String) (targets : List String)
  | allGreen (sha : String) (targets : List String)
  | resetTo (lastGood : String)
  | restoring (target : String)
  | restored (lastGood sha : String)
  | rollbackOk (lastGood : String)
  | rollbackIncomplete (target : String)
  | rollbackFailed (target : String)
  | progress (step : Message)

/-- `${sha:0:8}`. -/
def short (sha : String) : String := take 8 sha

/-- `${array[*]}`. -/
def words (array : List String) : String := " ".intercalate array

def Message.text : Message → String
  | anotherRun => "another run in progress — skipping"
  | repoMissing dir => "repo dir " ++ dir ++ " missing"
  | fetchFailed => "git fetch failed"
  | noTag glob => "no " ++ glob ++ " tag — nothing to deploy (CI-only push)"
  | unresolved tag => "cannot resolve deploy tag " ++ tag
  | alreadyHandled tag sha => "deploy tag " ++ tag ++ " (" ++ short sha ++
      ") already handled — nothing to do"
  | evaluating tag sha => "🔎 new deploy tag " ++ tag ++ " (" ++ short sha ++
      ") — evaluating"
  | ciHolding conclusion sha => "CI not green (conclusion=" ++ conclusion ++
      ") for " ++ sha ++ " — holding"
  | ciNotGreen sha conclusion => "⏸️ " ++ short sha ++ " CI not green (" ++
      conclusion ++ ") — deploy held"
  | ciGreen sha => "✅ CI green for " ++ short sha
  | lfsAbsent => "git-lfs absent — LFS assets stay pointers"
  | lfsFailed => "git lfs pull failed — LFS assets may be pointers"
  | checkedOut tag sha lastGood => "⬇️ checked out " ++ tag ++ " → " ++
      short sha ++ " (was " ++ short lastGood ++ ")"
  | heldForManual skipped =>
      "held for manual deploy (outside pilot allowlist): " ++ words skipped
  | heldOutside sha skipped => "⏸️ " ++ short sha ++ ": " ++ words skipped ++
      " changed but outside CD pilot — deploy manually (make …)"
  | nothingDeployable lastGood sha => "no deployable ansible changes in " ++
      short lastGood ++ ".." ++ short sha
  | noChanges sha => "ℹ️ " ++ short sha ++
      ": no ansible changes to deploy (docs/CI only)"
  | deployPlan targets => "deploy plan: " ++ words targets
  | deploying sha targets skipped => "🚀 deploying " ++ short sha ++
      " → targets: " ++ words targets ++
      if skipped = [] then "" else " | ⏸️ held for manual deploy: " ++ words skipped
  | noPlaybook target => "no playbook playbooks/" ++ target ++
      ".yml — skipping target " ++ target
  | attemptFailed target attempt rc => "target " ++ target ++ " attempt " ++
      toString attempt ++ "/3 failed (rc=" ++ toString rc ++
      ") — likely transient-under-load, backing off"
  | targetStarts target => "⚙️ deploying: " ++ target
  | targetDeployed target => "✅ " ++ target ++ " deployed"
  | deployFailed target => "deploy FAILED at target " ++ target
  | rollingBack target => "❌ " ++ target ++ " FAILED — rolling back"
  | deployOk sha targets => "DEPLOY OK → " ++ short sha ++ " (" ++ words targets ++ ")"
  | allGreen sha targets => "🎉 homelab deployed " ++ short sha ++ " — " ++
      words targets ++ " (all green)"
  | resetTo lastGood => "↩️ reset to last-good " ++ short lastGood ++ " — restoring"
  | restoring target => "⚙️ restoring: " ++ target
  | restored lastGood sha => "↩️ rolled back to " ++ short lastGood ++
      " (restored). Commit " ++ short sha ++ " held — fix + re-push."
  | rollbackOk lastGood => "ROLLBACK OK → " ++ short lastGood
  | rollbackIncomplete target => "🚨 ROLLBACK INCOMPLETE — " ++ target ++
      " failed to restore. MANUAL FIX NEEDED."
  | rollbackFailed target => "ROLLBACK FAILED at " ++ target
  | progress step => "progress: " ++ step.text

/-! ## Operations -/

/-- The three `ansible-playbook` commands of one deploy. -/
inductive Stage
  | syntaxCheck
  | check
  | apply
deriving DecidableEq

inductive Lfs
  | absent
  | failed
  | pulled

inductive Operation
  | flock
  | cdRepo
  | gitFetch
  | newestTag
  | revParse (rev : String)
  | lastGood
  | headSha
  | textfileDir
  | denylistMarker (target : String)
  | denylistDiff (marker sha : String)
  | denylistPlan (target : String) (changed : List String)
  | writeDrift (samples : List (String × Bool))
  | needsDeploy (sha : String)
  | ciConclusion (sha : String)
  | stateSet (command : StateCommand)
  | gitReset (sha : String)
  | lfsPull
  | gitDiff (before after : String)
  | plan (changed : List String)
  | planSkipped (changed : List String)
  | rollbackTargets (failed : String) (targets : List String)
  | playbook (target : String)
  | ansible (stage : Stage) (target : String)
  | sleep (seconds : Nat)
  | now
  | writeMetrics (now : Int) (runOk : Bool)
  | log (message : Message)
  | notify (message : Message) (priority tags : String)

/-- What `git diff --name-only` printed for the drift watch, and whether it computed
the diff: its exit status, which nothing looks at. -/
structure Diff where
  computed : Bool
  printed : String
deriving DecidableEq

/-- Text answers are what the command printed, its exit status left out where
the script does not look at it. -/
abbrev Answer : Operation → Type
  | .newestTag => String
  | .revParse _ => String
  | .lastGood => String
  | .headSha => String
  | .denylistMarker _ => String
  | .denylistDiff _ _ => Diff
  | .ciConclusion _ => String
  | .lfsPull => Lfs
  | .gitDiff _ _ => String
  | .plan _ => String
  | .planSkipped _ => String
  | .rollbackTargets _ _ => String
  | .ansible _ _ => Nat
  | .now => Int
  | .sleep _ => Unit
  | .log _ => Unit
  | .notify _ _ _ => Unit
  | _ => Bool

abbrev interface : Interface := ⟨Operation, Answer⟩

/-- A part of the script. An error is the status the script exits with. -/
abbrev Sh := Attempt interface Nat

def ask (operation : Operation) : Sh (Answer operation) :=
  ExceptT.lift (.call operation .done)

def log (message : Message) : Sh Unit := ask (.log message)

def notify (cfg : Config) (message : Message) (priority tags : String) : Sh Unit :=
  if cfg.ntfyUrl = "" then pure () else ask (.notify message priority tags)

def progress (cfg : Config) (message : Message) (priority tags : String) :
    Sh Unit := do
  log (.progress message)
  if cfg.notifyProgress then notify cfg message priority tags else pure ()

def emitMetrics (runOk : Bool) : Sh Unit := do
  if ← ask .textfileDir then do
    let now ← ask .now
    let _ ← ask (.writeMetrics now runOk)
    pure ()
  else pure ()

def finish {α : Type} (runOk : Bool) (status : Nat) : Sh α := do
  emitMetrics runOk
  throw status

/-! ## One target -/

/-- The subshell of `deploy_target`: its status is that of the first command
that fails. -/
def deployOnce (target : String) : Sh Nat := do
  let rc ← ask (.ansible .syntaxCheck target)
  if rc ≠ 0 then pure rc
  else do
    let rc ← ask (.ansible .check target)
    if rc ≠ 0 then pure rc else ask (.ansible .apply target)

/-- `for attempt in 1 2 3`, with the status so far. -/
def deployRetry (target : String) : List Nat → Nat → Sh Nat
  | [], rc => pure rc
  | attempt :: rest, _ => do
      let rc ← deployOnce target
      if rc = 0 then pure 0
      else do
        log (.attemptFailed target attempt rc)
        if attempt < 3 then ask (.sleep (attempt * 20)) else pure ()
        deployRetry target rest rc

def deployTarget (target : String) : Sh Nat := do
  if ← ask (.playbook target) then deployRetry target [1, 2, 3] 1
  else do
    log (.noPlaybook target)
    pure 0

/-! ## From the tag to the plan -/

/-- The planner is only asked about a nonempty diff; the answer is the status of
the pipeline into `grep -qx`. -/
def denylistDrift (target : String) (changed : List String) : Sh Bool :=
  if changed = [] then pure false else ask (.denylistPlan target changed)

def driftSamples (origin : String) : List String → Sh (List (String × Bool))
  | [] => pure []
  | target :: rest => do
      let marker := substitute (← ask (.denylistMarker target))
      if marker = "" then driftSamples origin rest
      else do
        let changed := readLines (← ask (.denylistDiff marker origin)).printed
        let drift ← denylistDrift target changed
        let samples ← driftSamples origin rest
        pure ((target, drift) :: samples)

def driftWatch (cfg : Config) (origin : String) : Sh Unit := do
  if ← ask .textfileDir then
    if cfg.neverAutoArr = [] then pure ()
    else do
      let samples ← driftSamples origin cfg.neverAutoArr
      let _ ← ask (.writeDrift samples)
      pure ()
  else pure ()

/-- The plan's baseline: the last commit that was deployed, or `HEAD`. -/
def readLastGood : Sh String := do
  let lastGood := substitute (← ask .lastGood)
  if lastGood = "" then do
    let head ← ask .headSha
    pure (substitute head)
  else pure lastGood

def ciGate (cfg : Config) (origin : String) : Sh Unit :=
  if cfg.ciToken = "" then pure ()
  else do
    let conclusion := substitute (← ask (.ciConclusion origin))
    if ciPassed conclusion then progress cfg (.ciGreen origin) "low" "white_check_mark"
    else do
      log (.ciHolding conclusion origin)
      notify cfg (.ciNotGreen origin conclusion) "default" "warning"
      finish true 0

structure Job where
  tag : String
  lastGood : String
  origin : String

/-- Everything before the first effect. It returns only if there is a commit to
deploy. -/
def gate (cfg : Config) : Sh Job := do
  if ← ask .flock then do
    if ← ask .cdRepo then do
      if ← ask .gitFetch then do
        let tag := substitute (← ask .newestTag)
        if tag = "" then do
          log (.noTag cfg.deployTagGlob)
          finish true 0
        else do
          let origin := substitute (← ask (.revParse tag))
          let lastGood ← readLastGood
          if origin = "" then do
            log (.unresolved tag)
            finish false 0
          else do
            driftWatch cfg origin
            if ← ask (.needsDeploy origin) then do
              progress cfg (.evaluating tag origin) "low" "eyes"
              ciGate cfg origin
              pure ⟨tag, lastGood, origin⟩
            else do
              log (.alreadyHandled tag origin)
              finish true 0
      else do
        log .fetchFailed
        finish false 0
    else do
      log (.repoMissing cfg.repoDir)
      finish false 1
  else do
    log .anotherRun
    throw 0

def lfsPull : Sh Unit := do
  match ← ask .lfsPull with
  | .absent => log .lfsAbsent
  | .failed => log .lfsFailed
  | .pulled => pure ()

/-- `git reset --hard`, whose status nothing looks at. -/
def checkout (sha : String) : Sh Unit := do
  let _ ← ask (.gitReset sha)
  lfsPull

def stateSet (command : StateCommand) : Sh Unit := do
  let _ ← ask (.stateSet command)
  pure ()

structure Plan where
  targets : List String
  skipped : List String

/-- Adopt the new commit and compute the deploy plan. -/
def adopt (cfg : Config) (job : Job) : Sh Plan := do
  stateSet (.onAttempt job.origin)
  checkout job.origin
  progress cfg (.checkedOut job.tag job.origin job.lastGood) "low" "arrow_down"
  let changed := readLines (← ask (.gitDiff job.lastGood job.origin))
  let targets := readLines (← ask (.plan changed))
  let skipped := readLines (← ask (.planSkipped changed))
  pure ⟨targets, skipped⟩

/-! ## Outcomes -/

def recordSuccess (origin : String) : Sh Unit := do
  let now ← ask .now
  stateSet (.onSuccess origin now)

def adoptOnly (cfg : Config) (job : Job) (skipped : List String) : Sh Unit := do
  if skipped ≠ [] then do
    log (.heldForManual skipped)
    recordSuccess job.origin
    notify cfg (.heldOutside job.origin skipped) "default" "warning"
  else do
    log (.nothingDeployable job.lastGood job.origin)
    recordSuccess job.origin
    progress cfg (.noChanges job.origin) "low" "information_source"
  finish true 0

def deployAll (cfg : Config) : List String → Sh (Option String)
  | [] => pure none
  | target :: rest => do
      progress cfg (.targetStarts target) "low" "gear"
      let rc ← deployTarget target
      if rc = 0 then do
        progress cfg (.targetDeployed target) "low" "white_check_mark"
        deployAll cfg rest
      else do
        log (.deployFailed target)
        notify cfg (.rollingBack target) "high" "x"
        pure (some target)

/-- The restore loop, with `RB_FAIL` so far. -/
def restoreAll (cfg : Config) : List String → String → Sh String
  | [], rbFail => pure rbFail
  | target :: rest, rbFail => do
      notify cfg (.restoring target) "low" "gear"
      let rc ← deployTarget target
      restoreAll cfg rest (if rc = 0 then rbFail else target)

def recordFail (origin : String) : Sh Unit := do
  let now ← ask .now
  stateSet (.onFail origin now)

def reportRollback (cfg : Config) (job : Job) (rbFail : String) : Sh Unit := do
  if rbFail = "" then do
    notify cfg (.restored job.lastGood job.origin) "high" "warning"
    log (.rollbackOk job.lastGood)
  else do
    notify cfg (.rollbackIncomplete rbFail) "max" "rotating_light"
    log (.rollbackFailed rbFail)

def rollback (cfg : Config) (job : Job) (targets : List String) (failed : String) :
    Sh Unit := do
  checkout job.lastGood
  notify cfg (.resetTo job.lastGood) "high" "leftwards_arrow_with_hook"
  let restore := readLines (← ask (.rollbackTargets failed targets))
  let rbFail ← restoreAll cfg restore ""
  recordFail job.origin
  reportRollback cfg job rbFail
  finish false 1

def deploy (cfg : Config) (job : Job) (plan : Plan) : Sh Unit := do
  log (.deployPlan plan.targets)
  notify cfg (.deploying job.origin plan.targets plan.skipped) "default" "rocket"
  match ← deployAll cfg plan.targets with
  | none => do
      recordSuccess job.origin
      log (.deployOk job.origin plan.targets)
      notify cfg (.allGreen job.origin plan.targets) "default" "tada"
      finish true 0
  | some failed => rollback cfg job plan.targets failed

def controller (cfg : Config) : Sh Unit := do
  let job ← gate cfg
  let plan ← adopt cfg job
  if plan.targets = [] then adoptOnly cfg job plan.skipped
  else deploy cfg job plan

/-! ## The durable world -/

abbrev Files := String → Option String

structure Repository where
  files : String → Files

def hasPlaybook (files : Files) (target : String) : Bool :=
  (files ("ansible/playbooks/" ++ target ++ ".yml")).isSome

def content (rules : Rules) (files : Files) (target : String) : Files :=
  fun path => if fileTarget rules path = some target then files path else none

structure Checkout where
  head : String
  files : Files

/-- `runtime target` is the content of the target that is live. -/
structure World where
  state : StateFile
  metrics : Option Metrics
  checkout : Checkout
  runtime : String → Files

/-- Git, curl and ansible answer as they like; the decision module and the test
for a playbook answer what they find. A failed reset leaves any files behind,
a failed deploy leaves any content of its target behind. -/
def system (cfg : Config) (repo : Repository) : System interface World where
  Step world operation answer after :=
    match operation, answer with
    | .lastGood, (answer : String) =>
        after = world ∧ answer = world.state.lastGood
    | .needsDeploy sha, (answer : Bool) =>
        after = world ∧ answer = (match world.state.load with
          | some state => needsDeploy state sha
          | none => false)
    | .stateSet command, (answer : Bool) =>
        match answer with
        | true => ∃ state, world.state.load.bind command.apply = some state ∧
            after = { world with state := .document state }
        | false => after = world
    | .gitReset sha, (answer : Bool) =>
        match answer with
        | true => after = { world with checkout := ⟨sha, repo.files sha⟩ }
        | false => ∃ checkout, after = { world with checkout }
    | .plan changed, (answer : String) =>
        after = world ∧ answer = printLines (planTargets cfg.rules
          (csv cfg.allowlist) (csv cfg.neverAuto) changed)
    | .planSkipped changed, (answer : String) =>
        after = world ∧ answer = printLines (planSkipped cfg.rules
          (csv cfg.allowlist) (csv cfg.neverAuto) changed)
    | .rollbackTargets failed targets, (answer : String) =>
        after = world ∧ answer = printLines (rollbackTargets targets failed)
    | .playbook target, (answer : Bool) =>
        after = world ∧ answer = hasPlaybook world.checkout.files target
    | .ansible .apply target, (answer : Nat) =>
        ∃ live, after = { world with
            runtime := Function.update world.runtime target live } ∧
          (answer = 0 → live = content cfg.rules world.checkout.files target)
    | .writeMetrics now runOk, (answer : Bool) =>
        match answer with
        | true => ∃ state, world.state.load = some state ∧
            after = { world with metrics := some (renderMetrics state now runOk) }
        | false => after = world
    | _, _ => after = world

abbrev CdRun := Run interface World Unit (Except Nat Unit)

abbrev CdHistory (cfg : Config) (repo : Repository) (initial : World)
    (runs : List CdRun) (final : World) : Prop :=
  History (system cfg repo) (fun _ => (controller cfg).run) initial runs final

end Homelab.Autodeploy
