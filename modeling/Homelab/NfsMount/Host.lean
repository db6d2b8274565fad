import Homelab.Effects.Within
import Homelab.NfsMount.Supervisor

/-! # The host of the NFS supervisor

Commands, clocks and files answer as they like. What is fixed is the program's own
memory, that the monotonic clock never goes back, and who can have stopped the
worker.
-/

namespace Homelab.NfsMount

open Effects Text

/-- The launchd worker: loaded, absent for reasons of its own, or stopped by the
supervisor and not loaded since. -/
inductive Worker
  | loaded
  | absent
  | stopped
deriving DecidableEq, Repr

structure World where
  clock : ℚ
  pending : List Command
  worker : Worker
deriving DecidableEq

def Bootout : Operation → Prop
  | .launch command _ => ∃ label, command = bootout label
  | _ => False

def Bootstrap : Operation → Prop
  | .launch command _ =>
      ∃ domain, startsWith "gui/" domain = true ∧ command = bootstrap domain
  | _ => False

def Launched.succeeded : Launched → Bool
  | .finished completed => completed.returncode = 0
  | _ => false

/-- `PENDING`. -/
def Keeping (world : World) : (operation : Operation) → Answer operation → World → Prop
  | .pending, answer, after => answer = world.pending ∧ after.pending = world.pending
  | .forget key, _, after => after.pending = world.pending.erase key
  | .remember key, _, after => after.pending = world.pending ++ [key]
  | _, _, after => after.pending = world.pending

def Ticking (world : World) : (operation : Operation) → Answer operation → World → Prop
  | .monotonic, now, after => world.clock ≤ now ∧ after.clock = now
  | _, _, after => world.clock ≤ after.clock

/-- Whether a command worked need not agree with its status, except for success. -/
structure Working (world : World) (operation : Operation) (succeeded : Bool)
    (after : World) : Prop where
  stopped : after.worker = .stopped →
    world.worker = .stopped ∨ world.worker = .loaded ∧ Bootout operation
  kept : world.worker = .stopped → after.worker ≠ .absent
  unloaded : Bootout operation → succeeded = true → after.worker ≠ .loaded
  loaded : Bootstrap operation → succeeded = true → after.worker = .loaded

def succeeded : (operation : Operation) → Answer operation → Bool
  | .launch _ _, (answer : Launched) => answer.succeeded
  | _, _ => false

structure HostStep (world : World) (operation : Operation) (answer : Answer operation)
    (after : World) : Prop where
  keeping : Keeping world operation answer after
  ticking : Ticking world operation answer after
  working : Working world operation (succeeded operation answer) after

def system : System interface World := ⟨HostStep⟩

abbrev SupervisorRun (cfg : Config) (world : World) :=
  LoopRun system (supervise cfg) initialHistory world

theorem clock_le {world after : World} {operation : Operation}
    {answer : Answer operation} (step : system.Step world operation answer after) :
    world.clock ≤ after.clock := by
  have ticking := HostStep.ticking step
  cases operation with
  | monotonic => exact ticking.2 ▸ ticking.1
  | _ => exact ticking

/-! ## A host that follows a script -/

def isBootout (command : Command) : Bool :=
  command.length = 3 && command = bootout (command.getD 2 "")

def isBootstrap (command : Command) : Bool :=
  command.length = 4 && startsWith "gui/" (command.getD 2 "") &&
    command = bootstrap (command.getD 2 "")

/-- Stopping the worker always takes effect here, loading it only if it succeeds. -/
def Worker.commanded (worker : Worker) (command : Command) (succeeded : Bool) : Worker :=
  if isBootout command then if worker = .loaded then .stopped else worker
  else if isBootstrap command && succeeded then .loaded
  else worker

abbrev Script := Command → Launched

def World.reply (world : World) (script : Script) :
    (operation : Operation) → Answer operation
  | .pending => world.pending
  | .poll _ => true
  | .launch command _ => script command
  | .monotonic => world.clock
  | .time => (1700000000 : Int)
  | .getpwnam _ => some (501 : Nat)
  | .isFile _ => some true
  | .writeStatus _ _ => true
  | .forget _ => ()
  | .remember _ => ()
  | .announce _ _ _ => ()
  | .sleep _ => ()

def World.settle (world : World) (script : Script) : Operation → World
  | .forget key => { world with pending := world.pending.erase key }
  | .remember key => { world with pending := world.pending ++ [key] }
  | .launch command _ =>
      { world with worker := world.worker.commanded command (script command).succeeded }
  | _ => world

def host (script : Script) : Oracle interface World := fun _ world operation =>
  (world.reply script operation, world.settle script operation)

theorem isBootout_iff {command : Command} :
    isBootout command = true ↔ ∃ label, command = bootout label := by
  simp only [isBootout, Bool.and_eq_true, decide_eq_true_eq]
  constructor
  · exact fun same => ⟨_, same.2⟩
  · rintro ⟨label, rfl⟩
    exact ⟨rfl, rfl⟩

theorem isBootstrap_iff {command : Command} : isBootstrap command = true ↔
    ∃ domain, startsWith "gui/" domain = true ∧ command = bootstrap domain := by
  simp only [isBootstrap, Bool.and_eq_true, decide_eq_true_eq]
  constructor
  · exact fun same => ⟨_, same.1.2, same.2⟩
  · rintro ⟨domain, gui, rfl⟩
    exact ⟨⟨rfl, gui⟩, rfl⟩

theorem bootout_launch {command : Command} {timeout : Nat} :
    Bootout (.launch command timeout) ↔ isBootout command = true :=
  isBootout_iff.symm

theorem bootstrap_launch {command : Command} {timeout : Nat} :
    Bootstrap (.launch command timeout) ↔ isBootstrap command = true :=
  isBootstrap_iff.symm

theorem working_launch (world : World) (script : Script) (command : Command)
    (timeout : Nat) : Working world (.launch command timeout) (script command).succeeded
      (world.settle script (.launch command timeout)) := by
  have distinct : isBootout command = true → isBootstrap command = false := by
    rw [isBootout_iff]
    rintro ⟨label, rfl⟩
    simp [isBootstrap, bootout, bootstrap]
  constructor
  all_goals
    simp only [bootout_launch, bootstrap_launch, World.settle, Worker.commanded]
    grind

theorem Working.same {world after : World} {operation : Operation} {succeeded : Bool}
    (notOut : ¬Bootout operation) (notStrap : ¬Bootstrap operation)
    (kept : after.worker = world.worker) : Working world operation succeeded after := by
  constructor
  · exact fun stopped => .inl (kept ▸ stopped)
  · rw [kept]
    rintro stopped impossible
    cases stopped.symm.trans impossible
  · exact fun impossible => absurd impossible notOut
  · exact fun impossible => absurd impossible notStrap

theorem host_permitted (script : Script) : Permitted system (host script) := by
  intro past world operation
  cases operation with
  | launch command timeout =>
      exact ⟨rfl, le_rfl, working_launch world script command timeout⟩
  | pending => exact ⟨⟨rfl, rfl⟩, le_rfl, .same id id rfl⟩
  | monotonic => exact ⟨rfl, ⟨le_rfl, rfl⟩, .same id id rfl⟩
  | _ => exact ⟨rfl, le_rfl, .same id id rfl⟩

def follow {cfg : Config} {world : World} (run : SupervisorRun cfg world)
    (script : Script) : SupervisorRun cfg world :=
  run.resume (host_permitted script) 200

def pilotConfig : Config := ⟨"/usr/bin/python3", "/usr/local/libexec/nfs_mount.py"⟩

/-- The worker runs, and nothing is blocked. -/
def pilotWorld : World := ⟨0, [], .loaded⟩

def exits (returncode : Int) (stdout : String) : Launched :=
  .finished ⟨returncode, stdout, ""⟩

/-! ## What the parts of the program ask for -/

/-- Anything but the announcement of an attempt, and commands of this kind only. -/
def Uses (commands : Command → Prop) : Operation → Prop
  | .launch command _ => commands command
  | .remember command => commands command
  | .announce _ _ _ => False
  | _ => True

theorem Uses.mono {commands more : Command → Prop} {operation : Operation}
    (uses : Uses commands operation) (wider : ∀ command, commands command → more command) :
    Uses more operation := by
  cases operation with
  | launch command timeout => exact wider command uses
  | remember command => exact wider command uses
  | announce => exact uses.elim
  | _ => trivial

/-- Commands of this kind are allowed, and what goes along with any command. -/
class Covers (commands : Command → Prop) (allowed : Operation → Prop) : Prop where
  pending : allowed .pending
  poll (key : Command) : allowed (.poll key)
  forget (key : Command) : allowed (.forget key)
  remember (command : Command) : commands command → allowed (.remember command)
  launch (command : Command) (timeout : Nat) : commands command →
    allowed (.launch command timeout)
  time : allowed .time
  getpwnam (user : String) : allowed (.getpwnam user)
  isFile (path : String) : allowed (.isFile path)

theorem Uses.covers (commands : Command → Prop) : Covers commands (Uses commands) where
  pending := trivial
  poll _ := trivial
  forget _ := trivial
  remember _ asked := asked
  launch _ _ asked := asked
  time := trivial
  getpwnam _ := trivial
  isFile _ := trivial

instance {commands : Command → Prop} : Covers commands (Uses commands) := Uses.covers commands

theorem target_injective {name other : Export} (same : name.target = other.target) :
    name = other := by
  cases name <;> cases other <;> first | rfl | exact absurd same (by decide)

/-- The command in question has just been launched and ended so. -/
def JustFinished (command : Command) (timeout : Nat) (completed : Completed)
    (past : Past interface World) : Prop :=
  ∃ before after older,
    past = ⟨before, .launch command timeout, .finished completed, after⟩ :: older

section Rules

variable {α β : Type} {rules : System interface World}
  {good : Past interface World → Moment interface World → Prop}
  {inv : Past interface World → World → Prop}
  {failed : Past interface World → World → Exception → Prop}
  {past : Past interface World} {world : World} {commands : Command → Prop}
  {allowed : Operation → Prop}

theorem ask_bind {operation : Operation} {next : Answer operation → Py β}
    {post : Past interface World → World → β → Prop} :
    Attempt.Guarded rules good post failed (ask operation >>= next) past world ↔
      ∀ answer after, rules.Step world operation answer after →
        good past ⟨world, operation, answer, after⟩ ∧
          Attempt.Guarded rules good post failed (next answer)
            (⟨world, operation, answer, after⟩ :: past) after :=
  Attempt.call_bind

theorem ask_steady {allowed : Operation → Prop} (operation : Operation)
    (permitted : allowed operation) : (ask operation).Steady allowed := by
  apply Attempt.steady_lift
  exact ⟨permitted, fun _ => trivial⟩

theorem ask_within {allowed : Operation → Prop} (operation : Operation)
    (permitted : allowed operation) : (ask operation).Within allowed :=
  (ask_steady operation permitted).within

theorem reap_steady (covers : Covers commands allowed) (keys : List Command) :
    (reap keys).Steady allowed := by
  induction keys with
  | nil => exact Attempt.steady_pure ()
  | cons key rest induction =>
      refine Attempt.Steady.bind (ask_steady (.poll key) (covers.poll key) |>.bind ?_)
        fun _ => induction
      intro exited
      split
      · exact ask_steady (.forget key) (covers.forget key)
      · exact Attempt.steady_pure ()

/-- The rule for `run`: what is kept until `PENDING` has been read, and what follows. -/
theorem run_rule {command : Command} {timeout : Nat}
    {post : Past interface World → World → Completed → Prop}
    (covers : Covers commands allowed) (keeps : Keeps rules allowed good inv)
    (start : inv past world)
    (next : ∀ past before keys after, rules.Step before .pending keys after →
      inv past before → inv (⟨before, .pending, keys, after⟩ :: past) after →
      Attempt.Guarded rules good post failed
        (if command ∈ keys then pure ⟨124, "", "previous operation still blocked"⟩
          else spawn command timeout)
        (⟨before, .pending, keys, after⟩ :: past) after) :
    Attempt.Guarded rules good post failed (run command timeout) past world := by
  apply ask_bind.mpr
  intro keys world₁ step₁
  have ⟨now₁, inv₁⟩ := keeps _ _ .pending keys world₁ covers.pending step₁ start
  refine ⟨now₁, Attempt.bind ((reap_steady covers keys).guarded keeps inv₁) ?_⟩
  intro past₂ world₂ _ inv₂
  apply ask_bind.mpr
  intro blocked world₃ step₃
  have ⟨now₃, inv₃⟩ := keeps _ _ .pending blocked world₃ covers.pending step₃ inv₂
  exact ⟨now₃, next past₂ world₂ blocked world₃ step₃ inv₂ inv₃⟩

/-- What holds of `run` if its operations keep `inv`: a status 0 means that the
command has just been launched and ended so. -/
theorem run_guarded {command : Command} {timeout : Nat}
    (keeps : Keeps rules (Uses commands) good inv) (asked : commands command)
    (raised : ∀ past world error, inv past world → failed past world error)
    (start : inv past world) :
    Attempt.Guarded rules good
      (fun past world result => inv past world ∧
        (result.returncode = 0 → JustFinished command timeout result past))
      failed (run command timeout) past world := by
  apply run_rule (Uses.covers commands) keeps start
  intro past before keys after _ _ inv₁
  split
  · exact ⟨inv₁, fun impossible => by cases impossible⟩
  · apply ask_bind.mpr
    intro launched world₂ step₂
    have ⟨now₂, inv₂⟩ := keeps _ _ (.launch command timeout) launched world₂ asked
      step₂ inv₁
    refine ⟨now₂, ?_⟩
    change Launched at launched
    cases launched with
    | refused message => exact ⟨inv₂, fun impossible => by cases impossible⟩
    | finished completed => exact ⟨inv₂, fun _ => ⟨_, _, _, rfl⟩⟩
    | undecodable => exact raised _ _ _ inv₂
    | expired stillBlocked =>
        cases stillBlocked with
        | false => exact ⟨inv₂, fun impossible => by cases impossible⟩
        | true =>
            apply ask_bind.mpr
            intro answer world₃ step₃
            have ⟨now₃, inv₃⟩ := keeps _ _ (.remember command) answer world₃ asked
              step₃ inv₂
            exact ⟨now₃, inv₃, fun impossible => by cases impossible⟩

end Rules

section Parts

variable {cfg : Config} {commands : Command → Prop} {allowed : Operation → Prop}
  [covers : Covers commands allowed]

theorem run_within {command : Command} {timeout : Nat} (asked : commands command) :
    (run command timeout).Within allowed := by
  refine Attempt.Within.bind (ask_within .pending covers.pending) fun keys => ?_
  refine Attempt.Within.bind (reap_steady covers keys).within fun _ => ?_
  refine Attempt.Within.bind (ask_within .pending covers.pending) fun blocked => ?_
  split
  · exact Attempt.within_pure _
  · refine Attempt.Within.bind (ask_within (.launch command timeout) (covers.launch _ _ asked))
      fun launched => ?_
    change Launched at launched
    cases launched with
    | refused message => exact Attempt.within_pure _
    | finished completed => exact Attempt.within_pure _
    | undecodable => exact Attempt.within_throw _
    | expired stillBlocked =>
        cases stillBlocked with
        | false => exact Attempt.within_pure _
        | true =>
            exact Attempt.Within.bind (ask_within (.remember command) (covers.remember _ asked))
              fun _ => Attempt.within_pure _

theorem readProbes_within {paths : List String}
    (probe : ∀ path ∈ paths, commands (readProbeCommand cfg path)) :
    (readProbes cfg paths).Within allowed := by
  induction paths with
  | nil => exact Attempt.within_pure _
  | cons path rest induction =>
      have asked : (readProbe cfg path).Within allowed :=
        (run_within (probe path List.mem_cons_self)).bind fun _ => Attempt.within_pure _
      apply asked.bind
      rintro ⟨ok, reason⟩
      dsimp only
      split
      · exact induction fun other member => probe other (List.mem_cons_of_mem _ member)
      · split <;> exact Attempt.within_pure _

theorem health_within {probes : List String}
    (probe : ∀ path ∈ probes, commands (readProbeCommand cfg path))
    (target : String) (status : Completed) :
    (health cfg target probes status).Within allowed := by
  unfold health
  split
  · exact Attempt.within_pure _
  · split
    · exact readProbes_within probe
    · exact Attempt.within_pure _

theorem inspectExport_within {name : Export}
    (probe : ∀ path ∈ name.probes, commands (readProbeCommand cfg path))
    (sources : Option (List (Line × Line))) (status : Completed) :
    (inspectExport cfg sources status name).Within allowed := by
  simp only [inspectExport]
  split
  · exact Attempt.within_pure _
  · split
    · exact Attempt.within_pure _
    · exact (health_within probe _ _).bind fun _ => Attempt.within_pure _

theorem mountedSources_within (list : commands mountList) :
    mountedSources.Within allowed := by
  apply (run_within list).bind
  intro result
  split <;> exact Attempt.within_pure _

theorem inspect_within (list : commands mountList) (stat : commands nfsstat)
    (probe : ∀ path, commands (readProbeCommand cfg path)) :
    (inspect cfg).Within allowed := by
  apply (mountedSources_within list).bind
  intro sources
  apply (run_within stat).bind
  intro status
  apply (inspectExport_within (fun path _ => probe path) _ _).bind
  intro srv
  apply (inspectExport_within (fun path _ => probe path) _ _).bind
  exact fun _ => Attempt.within_pure _

theorem pickFrom_within (asked : ∀ ip, commands (netcat ip)) (ips : List String) :
    (pickFrom ips).Within allowed := by
  induction ips with
  | nil => exact Attempt.within_pure _
  | cons ip rest induction =>
      apply (run_within (asked ip)).bind
      intro result
      split
      · exact Attempt.within_pure _
      · exact induction

theorem sourceFor_within (asked : ∀ ip, commands (netcat ip))
    (exports : PerExport Item) : (sourceFor exports).Within allowed := by
  unfold sourceFor
  split
  · exact Attempt.within_pure _
  · exact pickFrom_within asked sources

omit covers in
theorem stampRead_steady (permitted : allowed .time) (readOk : Bool) (record : Record) :
    (stampRead readOk record).Steady allowed := by
  unfold stampRead
  split
  · exact (ask_steady .time permitted).bind fun _ => Attempt.steady_pure _
  · exact Attempt.steady_pure _

theorem settle_within {name : Export} (stat : commands nfsstat)
    (probe : ∀ path ∈ name.probes, commands (readProbeCommand cfg path)) (source : String)
    (item : Item) (mounted : Bool) :
    (settle cfg source name item mounted).Within allowed := by
  unfold settle
  split
  · refine (run_within stat).bind fun status => ?_
    exact (health_within probe _ _).bind fun _ => Attempt.within_pure _
  · exact Attempt.within_pure _

theorem unmount_within {target : String} (first : commands (umount target))
    (second : commands (diskutil target)) :
    (unmount target).Within allowed := by
  apply (run_within first).bind
  intro result
  split
  · exact Attempt.within_pure _
  · exact (run_within second).bind fun _ => Attempt.within_pure _

theorem remount_within {source target : String} (list : commands mountList)
    (made : commands (mkdir target)) (mounts : commands (mountNfs source target)) :
    (remount source target).Within allowed := by
  apply (mountedSources_within list).bind
  intro mounted
  cases mounted with
  | none => exact Attempt.within_pure _
  | some mounted =>
      dsimp only
      split
      · exact Attempt.within_pure _
      · apply (run_within made).bind
        intro result
        split
        · exact Attempt.within_pure _
        · exact (run_within mounts).bind fun _ => Attempt.within_pure _

theorem recover_within {source target : String} (list : commands mountList)
    (first : commands (umount target)) (second : commands (diskutil target))
    (made : commands (mkdir target)) (mounts : commands (mountNfs source target))
    (action : Action) : (recover source target action).Within allowed := by
  have remounts : (remount source target).Within allowed := remount_within list made mounts
  unfold recover
  split
  · apply (unmount_within first second).bind
    intro off
    split
    · exact remounts
    · exact Attempt.within_pure _
  · exact remounts

theorem stopWorker_within (shown : ∀ label, commands (launchctlPrint label))
    (stopped : ∀ label, commands (bootout label)) :
    stopWorker.Within allowed := by
  refine Attempt.Within.bind (ask_within (.getpwnam workerUser) (covers.getpwnam _)) fun user => ?_
  change Option Nat at user
  cases user with
  | none => exact Attempt.within_pure _
  | some uid =>
      refine Attempt.Within.bind (run_within (shown _)) fun loaded => ?_
      split
      · refine Attempt.Within.bind (ask_within (.isFile nodePlist) (covers.isFile _))
          fun found => ?_
        change Option Bool at found
        rcases found with _ | _ | _
        · exact Attempt.within_throw _
        · exact Attempt.within_pure _
        · refine Attempt.Within.bind (run_within (stopped _)) fun result => ?_
          split <;> exact Attempt.within_pure _
      · split <;> exact Attempt.within_pure _

theorem stopFor_within (shown : ∀ label, commands (launchctlPrint label))
    (stopped : ∀ label, commands (bootout label)) (target : String) (action : Action) :
    (stopFor target action).Within allowed := by
  unfold stopFor
  split
  · exact stopWorker_within shown stopped
  · exact Attempt.within_pure _

theorem resumeWorker_within (asked : ∀ domain, commands (bootstrap domain))
    (domain : String) : (resumeWorker domain).Within allowed := by
  unfold resumeWorker
  split
  · exact Attempt.within_pure _
  · exact (run_within (asked domain)).bind fun _ => Attempt.within_pure _

theorem publish_within (asked : commands (publishCommand cfg))
    (exports : PerExport Report) : (publish cfg exports).Within (Uses commands) := by
  refine Attempt.Within.bind (ask_within .time trivial) fun now => ?_
  refine Attempt.Within.bind
    (ask_within (.writeStatus statusFile ⟨now, exports⟩) trivial) fun _ => ?_
  refine Attempt.Within.bind (run_within asked) fun _ => ?_
  exact ask_within (.sleep 30) trivial

end Parts

end Homelab.NfsMount
