import Homelab.Watchdog.Execute

/-! # The ledger is written ahead of every restart

Histories of scans, each of which may be killed anywhere and may fail to write
any file. The counters on disk never go back, they stay consistent with each
other, and a restart command is only issued after its intention is on disk.
-/

namespace Homelab.Watchdog

open Effects ByteText

/-! ## Durable counters -/

structure Counters where
  attempts : Nat
  restarts : Nat
  failures : Nat
  notifications : Nat
  notificationFailures : Nat
deriving DecidableEq

def Result.counters (r : Result) : Counters :=
  ⟨r.attempts.toNat, r.restarts.toNat, r.failures.toNat, r.notifications.toNat,
    r.notificationFailures.toNat⟩

/-- Without a readable ledger every counter is zero. -/
def LedgerFile.counters : LedgerFile → Counters
  | .document r => r.counters
  | _ => ⟨0, 0, 0, 0, 0⟩

def World.counters (world : World) : Counters := world.ledger.counters

structure Counters.Le (before after : Counters) : Prop where
  attempts : before.attempts ≤ after.attempts
  restarts : before.restarts ≤ after.restarts
  failures : before.failures ≤ after.failures
  notifications : before.notifications ≤ after.notifications
  notificationFailures :
    before.notificationFailures ≤ after.notificationFailures

theorem Counters.Le.refl (counters : Counters) : counters.Le counters := by
  constructor <;> exact Nat.le_refl _

/-- Every attempt ends in at most one result, and so does every notification. -/
structure Counters.Sound (counters : Counters) : Prop where
  restarts : counters.restarts + counters.failures ≤ counters.attempts
  notifications : counters.notificationFailures ≤ counters.notifications

/-- One more attempt and one more notification still fit in 64 bits. -/
def World.Below (world : World) : Prop :=
  world.counters.attempts + 1 < 2 ^ 64 ∧ world.counters.notifications + 1 < 2 ^ 64

theorem toNat_succ {counter : UInt64} (below : counter.toNat + 1 < 2 ^ 64) :
    (counter + 1).toNat = counter.toNat + 1 := by
  rw [UInt64.toNat_add, UInt64.toNat_one, Nat.mod_eq_of_lt below]

/-! What the increments of the source do, as long as they do not wrap. -/

theorem counters_attempt {r : Result} (fits : r.counters.attempts + 1 < 2 ^ 64) :
    ({ r with attempts := r.attempts + 1 } : Result).counters =
      { r.counters with attempts := r.counters.attempts + 1 } := by
  simp only [Result.counters, toNat_succ fits]

theorem counters_restart {r : Result} (fits : r.counters.restarts + 1 < 2 ^ 64) :
    ({ r with restarts := r.restarts + 1 } : Result).counters =
      { r.counters with restarts := r.counters.restarts + 1 } := by
  simp only [Result.counters, toNat_succ fits]

theorem counters_failure {r : Result} (fits : r.counters.failures + 1 < 2 ^ 64) :
    ({ r with failures := r.failures + 1 } : Result).counters =
      { r.counters with failures := r.counters.failures + 1 } := by
  simp only [Result.counters, toNat_succ fits]

theorem counters_notification {r : Result}
    (fits : r.counters.notifications + 1 < 2 ^ 64) :
    ({ r with notifications := r.notifications + 1 } : Result).counters =
      { r.counters with notifications := r.counters.notifications + 1 } := by
  simp only [Result.counters, toNat_succ fits]

theorem counters_notificationFailure {r : Result}
    (fits : r.counters.notificationFailures + 1 < 2 ^ 64) :
    ({ r with notificationFailures := r.notificationFailures + 1 } :
        Result).counters =
      { r.counters with
        notificationFailures := r.counters.notificationFailures + 1 } := by
  simp only [Result.counters, toNat_succ fits]

@[simp] theorem Result.setContainer_counters (r : Result) (name : Name)
    (c : Container) : (r.setContainer name c).counters = r.counters := rfl

/-! ## What is claimed of each moment -/

def isRestart (moment : Moment interface World) : Bool :=
  match moment.operation with
  | .restart _ => true
  | _ => false

def restartsOf (past : Past interface World) : Past interface World :=
  past.filter isRestart

/-- A restart command finds its intention on disk: the container is marked, and
the attempt is counted beyond what any earlier restart command found. -/
def WriteAhead (past : Past interface World) (moment : Moment interface World) :
    Prop :=
  ∀ name, moment.operation = .restart name →
    (∃ r, moment.before.ledger = .document r ∧
      (r.container name).restartFailed = true) ∧
    ∀ earlier ∈ restartsOf past,
      earlier.before.counters.attempts < moment.before.counters.attempts

theorem writeAhead_of_other {past : Past interface World}
    {moment : Moment interface World} (other : isRestart moment = false) :
    WriteAhead past moment := by
  intro name restart
  simp [isRestart, restart] at other

structure LedgerInv (past : Past interface World) (world : World) : Prop where
  sound : world.counters.Sound
  counted : ∀ earlier ∈ restartsOf past,
    earlier.before.counters.attempts ≤ world.counters.attempts

def Grows (moment : Moment interface World) : Prop :=
  moment.before.counters.Le moment.after.counters

def LedgerStep (past : Past interface World) (moment : Moment interface World) :
    Prop :=
  (WriteAhead past moment ∧ Grows moment) ∧
    LedgerInv (moment :: past) moment.after

/-- A program of the scan, as long as no counter is about to overflow. Whether
it returns or fails, the ledger is left in order. -/
abbrev Logged {α : Type} (post : Past interface World → World → α → Prop)
    (attempt : Go α) (past : Past interface World) (world : World) : Prop :=
  Attempt.Guarded (system.restrict fun moment => moment.before.Below) LedgerStep
    post (fun past world _ => LedgerInv past world) attempt past world

/-! ## Operations that leave the ledger alone -/

def Operation.quiet : Operation → Bool
  | .writeLedger _ => false
  | .restart _ => false
  | _ => true

theorem system_ledger {world after : World} {operation : Operation}
    {answer : Answer operation} (quiet : operation.quiet = true)
    (step : system.Step world operation answer after) :
    after.ledger = world.ledger := by
  cases operation <;> simp only [Operation.quiet, Bool.false_eq_true] at quiet
  case writeState name content =>
    change Except String Unit at answer
    cases answer <;> cases step <;> rfl
  case removeState name =>
    change Except String Unit at answer
    cases answer <;> cases step <;> rfl
  case readLedger => exact congrArg World.ledger step.1
  case readState name => exact congrArg World.ledger step.1
  case globStates => exact congrArg World.ledger step.1
  all_goals exact congrArg World.ledger step

/-- The ledger and the restart commands are as they were. -/
structure Unchanged (past : Past interface World) (world : World)
    (pastNow : Past interface World) (worldNow : World) : Prop where
  ledger : worldNow.ledger = world.ledger
  restarts : restartsOf pastNow = restartsOf past

namespace Unchanged

variable {past pastNow pastLast : Past interface World}
  {world worldNow worldLast : World}

theorem refl (past : Past interface World) (world : World) :
    Unchanged past world past world := ⟨rfl, rfl⟩

theorem trans (first : Unchanged past world pastNow worldNow)
    (second : Unchanged pastNow worldNow pastLast worldLast) :
    Unchanged past world pastLast worldLast :=
  ⟨second.ledger.trans first.ledger, second.restarts.trans first.restarts⟩

theorem counters (unchanged : Unchanged past world pastNow worldNow) :
    worldNow.counters = world.counters :=
  congrArg LedgerFile.counters unchanged.ledger

theorem inv (unchanged : Unchanged past world pastNow worldNow)
    (inv : LedgerInv past world) : LedgerInv pastNow worldNow := by
  constructor
  · rw [unchanged.counters]
    exact inv.sound
  · rw [unchanged.counters, unchanged.restarts]
    exact inv.counted

end Unchanged

theorem quiet_moment {past : Past interface World} {world after : World}
    {operation : Operation} {answer : Answer operation}
    (quiet : operation.quiet = true) (inv : LedgerInv past world)
    (step : system.Step world operation answer after) :
    LedgerStep past ⟨world, operation, answer, after⟩ ∧
      Unchanged past world (⟨world, operation, answer, after⟩ :: past) after := by
  have ledger := system_ledger quiet step
  have unchanged : Unchanged past world
      (⟨world, operation, answer, after⟩ :: past) after := by
    refine ⟨ledger, ?_⟩
    cases operation <;> simp_all [restartsOf, isRestart, Operation.quiet]
  have other : isRestart ⟨world, operation, answer, after⟩ = false := by
    cases operation <;> first | rfl | cases quiet
  refine ⟨⟨⟨writeAhead_of_other other, ?_⟩, unchanged.inv inv⟩, unchanged⟩
  rw [Grows, unchanged.counters]
  exact .refl _

/-- An action that leaves the ledger alone, whether it returns or fails. -/
def Quiet {α : Type} (attempt : Go α) : Prop :=
  ∀ past world, LedgerInv past world →
    Attempt.Guarded (system.restrict fun moment => moment.before.Below) LedgerStep
      (fun pastNow worldNow _ => Unchanged past world pastNow worldNow)
      (fun pastNow worldNow _ => Unchanged past world pastNow worldNow)
      attempt past world

namespace Quiet

variable {α β : Type}

theorem pure (result : α) : Quiet (Pure.pure result : Go α) :=
  fun past world _ => .refl past world

theorem throw (message : String) : Quiet (MonadExcept.throw message : Go α) :=
  fun past world _ => .refl past world

theorem ofExcept (value : Except String α) : Quiet (Attempt.ofExcept value) := by
  cases value with
  | ok result => exact pure result
  | error message => exact throw message

theorem bind {attempt : Go α} {rest : α → Go β} (first : Quiet attempt)
    (second : ∀ result, Quiet (rest result)) : Quiet (attempt >>= rest) := by
  intro past world inv
  refine Attempt.bind (first past world inv) ?_
  intro pastNow worldNow result unchanged
  refine Attempt.mono (second result pastNow worldNow (unchanged.inv inv)) ?_ ?_
  · exact fun _ _ _ later => unchanged.trans later
  · exact fun _ _ _ later => unchanged.trans later

theorem call (operation : Operation) (quiet : operation.quiet = true) :
    Quiet (ExceptT.lift (.call operation .done) : Go (Answer operation)) :=
  fun _ _ inv => Attempt.lift_iff.mpr fun _ _ step =>
    quiet_moment quiet inv step.1

/-- An operation whose error is the action's error. -/
theorem demand {operation : Operation}
    {read : Answer operation → Except String α} (quiet : operation.quiet = true) :
    Quiet (.ofProgram (.call operation fun answer => .done (read answer))) := by
  intro past world inv answer after step
  refine ⟨(quiet_moment quiet inv step.1).1, ?_⟩
  have unchanged := (quiet_moment quiet inv step.1).2
  rw [Guarded.done_iff]
  cases read answer <;> exact unchanged

end Quiet

/-! ## Publishing -/

/-- What is about to be published does not lose anything that is on disk. -/
def Ahead (r : Result) (world : World) : Prop :=
  world.Below → world.counters.Le r.counters ∧ r.counters.Sound

theorem publish_logged {cfg : Config} {r : Result}
    {past : Past interface World} {world : World} (inv : LedgerInv past world)
    (ahead : Ahead r world) :
    Logged (fun pastNow worldNow _ => world.Below ∧
        worldNow.ledger = .document r ∧ restartsOf pastNow = restartsOf past ∧
        LedgerInv pastNow worldNow)
      (publish cfg r) past world := by
  refine Attempt.bind_iff.mpr ?_
  intro answer after step
  rcases step with ⟨step, below⟩
  change Except String Unit at answer
  rcases ahead below with ⟨grows, sound⟩
  cases answer with
  | error message =>
      cases step
      have unchanged : Unchanged past world
          (⟨world, .writeLedger r, .error message, world⟩ :: past) world :=
        ⟨rfl, rfl⟩
      exact ⟨⟨⟨writeAhead_of_other rfl, .refl _⟩, unchanged.inv inv⟩,
        unchanged.inv inv⟩
  | ok written =>
      cases step
      have written : LedgerInv (⟨world, .writeLedger r, .ok written,
          { world with ledger := .document r }⟩ :: past)
          { world with ledger := .document r } :=
        ⟨sound, fun earlier member =>
          (inv.counted earlier member).trans grows.attempts⟩
      refine ⟨⟨⟨writeAhead_of_other rfl, grows⟩, written⟩, ?_⟩
      have textfile : Quiet (writeTextfile r cfg.maxRestarts) := .demand rfl
      change Logged _ (writeTextfile r cfg.maxRestarts) _ _
      refine Attempt.mono (textfile _ _ written) ?_ ?_
      · intro pastNow worldNow _ unchanged
        exact ⟨below, unchanged.ledger, unchanged.restarts, unchanged.inv written⟩
      · intro pastNow worldNow _ unchanged
        exact unchanged.inv written

theorem fail_logged {α : Type} {cfg : Config} {r : Result} {message : String}
    {past : Past interface World} {world : World}
    {post : Past interface World → World → α → Prop}
    (inv : LedgerInv past world) (ahead : Ahead r world) :
    Logged post (fail cfg r message) past world :=
  Attempt.bind (publish_logged inv ahead) fun _ _ _ published => published.2.2.2

/-- `orFail` around an action that leaves the ledger alone, whatever becomes of
the action. -/
theorem orFail_logged {α : Type} {cfg : Config} {r : Result} {action : Go α}
    {past : Past interface World} {world : World}
    (inv : LedgerInv past world) (ahead : Ahead r world) (quiet : Quiet action) :
    Logged (fun pastNow worldNow _ => Unchanged past world pastNow worldNow)
      (orFail cfg r action) past world := by
  have settled : Logged
      (fun pastNow worldNow _ => Unchanged past world pastNow worldNow)
      action.outcome past world := by
    refine Attempt.outcome_iff.mpr (Guarded.post_mono (quiet past world inv) ?_)
    intro pastNow worldNow result holds
    cases result <;> exact holds
  refine Attempt.bind settled ?_
  intro pastNow worldNow result unchanged
  cases result with
  | ok value => exact unchanged
  | error message =>
      refine fail_logged (unchanged.inv inv) ?_
      intro below
      rw [World.Below, unchanged.counters] at below
      rw [unchanged.counters]
      exact ahead below

theorem saveLegacy_quiet (name : Name) (s : State) : Quiet (saveLegacy name s) :=
  .demand rfl

/-! ## The ledger in memory -/

def Synced (r : Result) (world : World) : Prop :=
  world.counters = r.counters

theorem Synced.ahead {r : Result} {world : World} {past : Past interface World}
    (synced : Synced r world) (inv : LedgerInv past world) : Ahead r world := by
  intro _
  rw [Synced] at synced
  exact ⟨synced ▸ .refl _, synced ▸ inv.sound⟩

theorem Synced.of_document {r : Result} {world : World}
    (document : world.ledger = .document r) : Synced r world :=
  congrArg LedgerFile.counters document

/-- What the container loop relies on between two containers. -/
structure InStep (past : Past interface World) (world : World) (r : Result) :
    Prop where
  inv : LedgerInv past world
  synced : Synced r world

theorem InStep.unchanged {past pastNow : Past interface World}
    {world worldNow : World} {r : Result} (inStep : InStep past world r)
    (unchanged : Unchanged past world pastNow worldNow) :
    InStep pastNow worldNow r :=
  ⟨unchanged.inv inStep.inv, unchanged.counters.trans inStep.synced⟩

theorem notify_logged {cfg : Config} {r : Result}
    {title priority tags body : Bytes} {past : Past interface World}
    {world : World} (inStep : InStep past world r) :
    Logged InStep (notify cfg r title priority tags body) past world := by
  have inv := inStep.inv
  have synced : world.counters = r.counters := inStep.synced
  have sound := inv.sound
  rw [synced] at sound
  have counted : world.Below →
      ({ r with notifications := r.notifications + 1 } : Result).counters =
        { r.counters with notifications := r.counters.notifications + 1 } :=
    fun below => counters_notification (synced ▸ below.2)
  refine Attempt.bind (publish_logged inv ?_) ?_
  · intro below
    rw [counted below, synced]
    refine ⟨⟨Nat.le_refl _, Nat.le_refl _, Nat.le_refl _, Nat.le_succ _,
      Nat.le_refl _⟩, ⟨sound.restarts, ?_⟩⟩
    exact sound.notifications.trans (Nat.le_succ _)
  · rintro past₁ world₁ _ ⟨below, document, _, inv₁⟩
    have counters₁ : world₁.counters =
        { r.counters with notifications := r.counters.notifications + 1 } :=
      (Synced.of_document document).trans (counted below)
    refine Attempt.bind (Attempt.mono
      (Quiet.call (.notifyHelper title priority tags body) rfl _ _ inv₁)
      (fun _ _ _ unchanged => unchanged)
      (fun _ _ _ unchanged => unchanged.inv inv₁)) ?_
    intro past₂ world₂ answer unchanged
    have inv₂ := unchanged.inv inv₁
    have counters₂ := unchanged.counters.trans counters₁
    cases answer with
    | ok _ =>
        have synced₂ : Synced { r with notifications := r.notifications + 1 }
            world₂ := counters₂.trans (counted below).symm
        refine Attempt.bind (publish_logged inv₂ (synced₂.ahead inv₂)) ?_
        rintro past₃ world₃ _ ⟨_, document₃, _, inv₃⟩
        exact ⟨inv₃, Synced.of_document document₃⟩
    | error message =>
        refine Attempt.bind (publish_logged inv₂ ?_) ?_
        · intro _
          have fits := below.2
          rw [synced] at fits
          have bound := sound.notifications
          rw [counters_notificationFailure
            (r := { r with notifications := r.notifications + 1 })
            (by rw [counted below]; simp only; omega), counted below, counters₂]
          refine ⟨⟨Nat.le_refl _, Nat.le_refl _, Nat.le_refl _, Nat.le_refl _,
            Nat.le_succ _⟩, ⟨sound.restarts, ?_⟩⟩
          simp only
          omega
        · rintro past₃ world₃ _ ⟨_, document₃, _, inv₃⟩
          exact ⟨inv₃, Synced.of_document document₃⟩

/-! ## One container -/

/-- The restart command itself, once its intention is on disk. -/
theorem restartCommand_logged {name : Name} {r : Result}
    {past : Past interface World} {world : World} (inv : LedgerInv past world)
    (document : world.ledger = .document r)
    (marked : (r.container name).restartFailed = true)
    (intended : ∀ earlier ∈ restartsOf past,
      earlier.before.counters.attempts < world.counters.attempts) :
    Logged (fun pastNow worldNow _ => worldNow = world ∧ LedgerInv pastNow world)
      (restartCommand name) past world := by
  refine Attempt.lift_iff.mpr ?_
  rintro answer after ⟨step, _⟩
  have same : after = world := step
  subst same
  have inv' : LedgerInv (⟨after, .restart name, answer, after⟩ :: past) after := by
    refine ⟨inv.sound, ?_⟩
    intro earlier member
    rcases List.mem_cons.mp member with rfl | member
    · exact Nat.le_refl _
    · exact inv.counted earlier member
  refine ⟨⟨⟨?_, .refl _⟩, inv'⟩, rfl, inv'⟩
  intro other restart
  cases restart
  exact ⟨⟨r, document, marked⟩, intended⟩

/-- After the command its result is counted in memory only, until both files
are written. -/
theorem publishResult_logged {cfg : Config} {r : Result} {name : Name}
    {s : State} {rest : Go Result} {past : Past interface World} {world : World}
    (inv : LedgerInv past world) (ahead : Ahead r world)
    (next : ∀ past world, InStep past world r → Logged InStep rest past world) :
    Logged InStep
      (orFail cfg r (saveLegacy name s) >>= fun _ => publish cfg r >>= fun _ => rest)
      past world := by
  refine Attempt.bind (orFail_logged inv ahead (saveLegacy_quiet name s)) ?_
  intro past₁ world₁ _ unchanged
  have ahead₁ : Ahead r world₁ := by
    intro below
    rw [World.Below, unchanged.counters] at below
    rw [unchanged.counters]
    exact ahead below
  refine Attempt.bind (publish_logged (unchanged.inv inv) ahead₁) ?_
  rintro past₂ world₂ _ ⟨_, document₂, _, inv₂⟩
  exact next past₂ world₂ ⟨inv₂, Synced.of_document document₂⟩

theorem tendRestart_logged {cfg : Config} {now : Int} {planned : State}
    {r : Result} {name : Name} {c : Container} {past : Past interface World}
    {world : World} (inStep : InStep past world r) :
    Logged InStep (tendRestart cfg now planned r name c) past world := by
  have inv := inStep.inv
  have synced : world.counters = r.counters := inStep.synced
  have sound := inv.sound
  rw [synced] at sound
  have results := sound.restarts
  have counted : world.Below →
      ({ r with attempts := r.attempts + 1 } : Result).counters =
        { r.counters with attempts := r.counters.attempts + 1 } :=
    fun below => counters_attempt (synced ▸ below.1)
  refine Attempt.bind (publish_logged inv ?_) ?_
  · intro below
    rw [Result.setContainer_counters, counted below, synced]
    refine ⟨⟨Nat.le_succ _, Nat.le_refl _, Nat.le_refl _, Nat.le_refl _,
      Nat.le_refl _⟩, ⟨?_, sound.notifications⟩⟩
    exact results.trans (Nat.le_succ _)
  · rintro past₁ world₁ _ ⟨below, document, restarts, inv₁⟩
    have counters₁ : world₁.counters =
        { r.counters with attempts := r.counters.attempts + 1 } :=
      (Synced.of_document document).trans (counted below)
    have fits := below.1
    rw [synced] at fits
    have intended : ∀ earlier ∈ restartsOf past₁,
        earlier.before.counters.attempts < world₁.counters.attempts := by
      intro earlier member
      rw [restarts] at member
      have before := inv.counted earlier member
      rw [synced] at before
      rw [counters₁]
      exact Nat.lt_succ_of_le before
    refine Attempt.bind
      (restartCommand_logged inv₁ document (by simp) intended) ?_
    rintro past₂ world₂ answer ⟨rfl, inv₂⟩
    cases answer with
    | ok _ =>
        refine publishResult_logged inv₂ ?_ ?_
        · intro _
          rw [Result.setContainer_counters, counters_restart
            (by rw [Result.setContainer_counters, counted below]; simp only; omega),
            Result.setContainer_counters, counted below, counters₁]
          refine ⟨⟨Nat.le_refl _, Nat.le_succ _, Nat.le_refl _, Nat.le_refl _,
            Nat.le_refl _⟩, ⟨?_, sound.notifications⟩⟩
          simp only
          omega
        · intro past₃ world₃ inStep₃
          exact notify_logged inStep₃
    | error message =>
        refine publishResult_logged inv₂ ?_ ?_
        · intro _
          rw [Result.setContainer_counters, counters_failure
            (by rw [Result.setContainer_counters, counted below]; simp only; omega),
            Result.setContainer_counters, counted below, counters₁]
          refine ⟨⟨Nat.le_refl _, Nat.le_refl _, Nat.le_succ _, Nat.le_refl _,
            Nat.le_refl _⟩, ⟨?_, sound.notifications⟩⟩
          simp only
          omega
        · intro past₃ world₃ inStep₃
          split
          · refine Attempt.bind (orFail_logged inStep₃.inv
              (inStep₃.synced.ahead inStep₃.inv) (saveLegacy_quiet _ _)) ?_
            intro past₄ world₄ _ unchanged
            have inStep₄ := inStep₃.unchanged unchanged
            exact notify_logged ⟨inStep₄.inv, inStep₄.synced⟩
          · exact inStep₃

theorem act_logged {cfg : Config} {now : Int} {p : Plan} {r : Result}
    {name : Name} {c : Container} {past : Past interface World} {world : World}
    (inStep : InStep past world r) :
    Logged InStep (act cfg now p r name c) past world := by
  unfold act
  split
  · exact tendRestart_logged inStep
  · split
    · exact notify_logged inStep
    · exact inStep
  · exact inStep

theorem tend_logged {cfg : Config} {now : Int} {scan : Scan} {r : Result}
    {name : Name} {past : Past interface World} {world : World}
    (inStep : InStep past world r) :
    Logged InStep (tend cfg now scan r name) past world := by
  unfold tend
  split
  · refine Attempt.bind (orFail_logged inStep.inv
      (inStep.synced.ahead inStep.inv) (saveLegacy_quiet _ _)) ?_
    intro past₁ world₁ _ unchanged
    exact act_logged (inStep.unchanged unchanged)
  · exact act_logged inStep

/-! ## A whole scan -/

theorem tendAll_logged {cfg : Config} {now : Int} {scan : Scan} {r : Result}
    {names : List Name} {past : Past interface World} {world : World}
    (inStep : InStep past world r) :
    Logged InStep (tendAll cfg now scan r names) past world := by
  induction names generalizing r past world with
  | nil => exact inStep
  | cons name rest induction =>
      exact Attempt.bind (tend_logged inStep) fun _ _ _ inStep₁ =>
        induction inStep₁

theorem collect_logged {cfg : Config} {scan : Scan} {r : Result}
    {files : List Name} {past : Past interface World} {world : World}
    (inStep : InStep past world r) :
    Logged (fun past world _ => InStep past world r) (collect cfg scan r files)
      past world := by
  induction files generalizing past world with
  | nil => exact inStep
  | cons name rest induction =>
      unfold collect
      split
      · refine Attempt.bind (orFail_logged inStep.inv
          (inStep.synced.ahead inStep.inv) (.demand rfl)) ?_
        intro past₁ world₁ _ unchanged
        exact induction (inStep.unchanged unchanged)
      · exact induction inStep

theorem actOn_logged {cfg : Config} {now : Int} {scan : Scan} {r : Result}
    {past : Past interface World} {world : World}
    (inStep : InStep past world r) :
    Logged (fun past world _ => LedgerInv past world) (actOn cfg now scan r)
      past world := by
  refine Attempt.bind (publish_logged inStep.inv
    (Synced.ahead inStep.synced inStep.inv)) ?_
  rintro past₁ world₁ _ ⟨_, document, _, inv₁⟩
  refine Attempt.bind (tendAll_logged ⟨inv₁, Synced.of_document document⟩) ?_
  intro past₂ world₂ r₂ inStep₂
  refine Attempt.bind (orFail_logged inStep₂.inv
    (inStep₂.synced.ahead inStep₂.inv) (.demand rfl)) ?_
  intro past₃ world₃ files unchanged
  refine Attempt.bind (collect_logged (inStep₂.unchanged unchanged)) ?_
  intro past₄ world₄ _ inStep₄
  refine Attempt.mono (publish_logged inStep₄.inv
    (Synced.ahead inStep₄.synced inStep₄.inv)) ?_ ?_
  · rintro past₅ world₅ _ ⟨_, _, _, inv₅⟩
    exact inv₅
  · exact fun _ _ _ inv₅ => inv₅

theorem readStates_quiet (names : List Name) : Quiet (readStates names) := by
  induction names with
  | nil => exact .pure _
  | cons name rest induction =>
      refine .bind (.call (.readState name) rfl) ?_
      intro answer
      cases answer with
      | notExist => exact induction
      | failed message => exact .throw message
      | data content =>
          exact .bind (.ofExcept _) fun _ => .bind induction fun _ => .pure _

theorem readScan_quiet : Quiet readScan := by
  refine .bind (.call .psUnhealthy rfl) fun first => ?_
  refine .bind (.ofExcept _) fun u => ?_
  refine .bind (.call .psAll rfl) fun second => ?_
  refine .bind (.ofExcept _) fun a => ?_
  refine .bind (.ofExcept _) fun unhealthy => ?_
  refine .bind (.ofExcept _) fun inventory => ?_
  rcases inventory with ⟨all, rows⟩
  change Quiet (if consistent unhealthy all rows then _ else _)
  split
  · exact .bind (readStates_quiet _) fun _ => .pure _
  · exact .throw _

/-- An accepted ledger has the counters that are on disk. -/
theorem acceptLedger_synced {world : World} {answer : LedgerRead} {r : Result}
    (read : answer = world.ledger.read ∨ ∃ message, answer = .failed message)
    (accepted : acceptLedger answer = .ok r) : Synced r world := by
  rcases read with rfl | ⟨message, rfl⟩
  · cases ledger : world.ledger with
    | absent =>
        rw [ledger] at accepted
        cases accepted
        rw [Synced, World.counters, ledger]
        rfl
    | corrupt =>
        rw [ledger] at accepted
        cases accepted
    | document document =>
        rw [ledger] at accepted
        simp only [acceptLedger, LedgerFile.read] at accepted
        split at accepted
        · cases accepted
        · split at accepted
          · cases accepted
            exact Synced.of_document ledger
          · cases accepted
  · cases accepted

/-- One run of `Execute`, killed or not. -/
theorem execute_logged {cfg : Config} {now : Int}
    {past : Past interface World} {world : World} (inv : LedgerInv past world) :
    Logged (fun past world _ => LedgerInv past world) (execute cfg now)
      past world := by
  have ordered {α : Type} {attempt : Go α} {past : Past interface World}
      {world : World} (quiet : Quiet attempt) (inv : LedgerInv past world) :
      Logged (fun pastNow worldNow _ => Unchanged past world pastNow worldNow)
        attempt past world :=
    Attempt.mono (quiet past world inv) (fun _ _ _ unchanged => unchanged)
      fun _ _ _ unchanged => unchanged.inv inv
  refine Attempt.bind (ordered (.ofExcept (checkConfig cfg now)) inv) ?_
  intro past₁ world₁ _ unchanged₁
  have inv₁ := unchanged₁.inv inv
  refine Attempt.bind_iff.mpr (Attempt.lift_iff.mpr ?_)
  intro answer after step
  have checked := @quiet_moment _ _ _ .readLedger _ rfl inv₁ step.1
  rcases step with ⟨⟨same, read⟩, _⟩
  refine ⟨checked.1, ?_⟩
  have inv₂ := checked.2.inv inv₁
  change Logged _ (Attempt.ofExcept (acceptLedger answer) >>= _) _ _
  cases accepted : acceptLedger answer with
  | error message => exact inv₂
  | ok r =>
      have synced : Synced r after := by
        rw [same]
        exact acceptLedger_synced read accepted
      have inStep : InStep _ after
          { r with lastRun := now, success := false, dockerReadOk := false } :=
        ⟨inv₂, synced⟩
      refine Attempt.bind_iff.mpr (Attempt.ofExcept_iff.mpr ?_)
      refine Attempt.bind (ordered (.demand rfl) inv₂) ?_
      intro past₃ world₃ _ unchanged₃
      have inStep₃ := inStep.unchanged unchanged₃
      refine Attempt.bind (orFail_logged inStep₃.inv
        (inStep₃.synced.ahead inStep₃.inv) readScan_quiet) ?_
      intro past₄ world₄ scan unchanged₄
      exact actOn_logged (inStep₃.unchanged unchanged₄)

/-- However the commands and files answer and wherever runs are killed: every
restart command finds its own intention on disk, no durable counter ever goes
back, and the durable counters stay consistent. -/
theorem ledger_written_ahead {initial final : World}
    {runs : List ScanRun}
    (history : Scans initial runs final) (initially : initial.counters.Sound)
    (below : ∀ moment ∈ Run.momentsOf runs, moment.before.Below) :
    final.counters.Sound ∧
      ∀ earlier moment later, Run.momentsOf runs = earlier ++ moment :: later →
        WriteAhead earlier.reverse moment ∧ Grows moment ∧
          moment.after.counters.Sound := by
  have start : LedgerInv [] initial :=
    ⟨initially, fun earlier member => by cases member⟩
  have guarded := (history.restrict below).guarded LedgerInv
    (fun past moment => WriteAhead past moment ∧ Grows moment) start
    fun scan past world inv =>
      (execute_logged inv).post_mono fun past world outcome holds => by
        cases outcome <;> exact holds
  refine ⟨guarded.1.sound, fun earlier moment later split => ?_⟩
  have holds := guarded.2 earlier moment later split
  exact ⟨holds.1.1, holds.1.2, holds.2.sound⟩

theorem ledger_written_ahead_firstScan :
    (∃ moment ∈ Run.momentsOf [firstScan], isRestart moment = true) ∧
      ∀ earlier moment later,
        Run.momentsOf [firstScan] = earlier ++ moment :: later →
        WriteAhead earlier.reverse moment ∧ Grows moment ∧
          moment.after.counters.Sound :=
  ⟨by decide +kernel,
    (ledger_written_ahead firstScan_scans ⟨by decide, by decide⟩
      (by unfold World.Below; decide +kernel)).2⟩

end Homelab.Watchdog
