import Homelab.Effects.Within
import Homelab.Watchdog.Execute

/-! # What one scan does to one container

A scan that is not killed and whose writes succeed either fails before its
inventories are validated and then leaves every container alone, or settles
each container in one step of the policy.
-/

namespace Homelab.Watchdog

open Effects ByteText

/-! ## What is seen of a container -/

/-- The ledger a moment writes, if the inventories were read. -/
def validatedLedger (moment : Moment interface World) : Option Result :=
  match moment.operation with
  | .writeLedger r => if r.dockerReadOk then some r else none
  | _ => none

def validatedLedgers (moments : List (Moment interface World)) : List Result :=
  moments.filterMap validatedLedger

/-- Whether a restart command for `name` succeeded. -/
def commandResult (name : Name) (moment : Moment interface World) : Option Bool :=
  match moment.operation, moment.answer with
  | .restart other, (answer : Except String Unit) =>
      if other = name then some answer.isOk else none
  | _, _ => none

def commandResults (name : Name) (moments : List (Moment interface World)) :
    List Bool :=
  moments.filterMap (commandResult name)

def Written (moment : Moment interface World) : Prop :=
  match moment.operation, moment.answer with
  | .writeLedger _, (answer : Except String Unit) => answer = .ok ()
  | .writeTextfile _ _, (answer : Except String Unit) => answer = .ok ()
  | .writeState _ _, (answer : Except String Unit) => answer = .ok ()
  | _, _ => True

theorem steadyScan_written (cfg : Config) (now : Int) (before : World) :
    ∀ moment ∈ (steadyScan cfg now before).moments, Written moment := by
  apply simulate_each
  intro past world operation
  cases operation <;> trivial

/-- A validated inventory that is published lists `name`. -/
def Lists (name : Name) (moment : Moment interface World) : Prop :=
  ∀ r ∈ validatedLedger moment, name ∈ r.containers

instance (name : Name) (moment : Moment interface World) :
    Decidable (Lists name moment) :=
  inferInstanceAs (Decidable (∀ r ∈ validatedLedger moment, name ∈ r.containers))

/-! ## One container settles -/

/-- What a restart command makes of the state planned for its container. -/
inductive Commanded (planned : State) (now : Int) : List Bool → State → Prop
  | restarted : Commanded planned now [true] (planned.restarted now)
  | failed (lastAlert : Int)
      (alerted : lastAlert = now ∨ lastAlert = planned.lastAlert) :
      Commanded planned now [false] { planned with lastAlert }

/-- One step of the policy for one container: the results of its restart
commands, and the state it is left in. -/
inductive Settles (p : Plan) (now : Int) : List Bool → State → Prop
  | idle (other : p.action ≠ .restart) : Settles p now [] p.state
  | commanded {results last} (restart : p.action = .restart)
      (command : Commanded p.state now results last) : Settles p now results last

/-- The state file of a container in state `s`. -/
def Stored (s : State) : Option Bytes → Prop
  | none => s = .zero
  | some content => content = s.bytes

/-- What the inventories of the validated ledgers so far say of a container. -/
def Seen (name : Name) (unhealthy : Option Bool) (ledgers : List Result) : Prop :=
  match unhealthy with
  | none => ledgers = []
  | some flag =>
      ledgers ≠ [] ∧ ∀ r ∈ ledgers, (r.container name).unhealthy = flag

structure Watched (name : Name) (unhealthy : Option Bool) (results : List Bool)
    (file : Option Bytes) (past : Past interface World) (world : World) :
    Prop where
  seen : Seen name unhealthy (validatedLedgers past)
  results : commandResults name past = results
  file : world.legacy name = file

/-- A program of the scan while `name` is watched. -/
abbrev Watching {α : Type} (name : Name)
    (post : Past interface World → World → α → Prop)
    (failed : Past interface World → World → String → Prop) (attempt : Go α)
    (past : Past interface World) (world : World) : Prop :=
  Attempt.Guarded
    (system.restrict fun moment => Written moment ∧ Lists name moment)
    (fun _ _ => True) post failed attempt past world

abbrev Surely {α : Type} (name : Name)
    (post : Past interface World → World → α → Prop) (attempt : Go α)
    (past : Past interface World) (world : World) : Prop :=
  Watching name post (fun _ _ _ => False) attempt past world

/-! ## Operations -/

/-- The operation neither writes the ledger nor touches the container. -/
def Operation.apart (name : Name) : Operation → Bool
  | .writeLedger _ => false
  | .restart other => other ≠ name
  | .writeState other _ => other ≠ name
  | .removeState other => other ≠ name
  | _ => true

/-- The operation does not touch the state file of the container. -/
def Operation.leaves (name : Name) : Operation → Bool
  | .writeState other _ => other ≠ name
  | .removeState other => other ≠ name
  | _ => true

theorem Operation.leaves_of_apart {name : Name} {operation : Operation}
    (apart : operation.apart name = true) : operation.leaves name = true := by
  cases operation with
  | writeState other content => exact apart
  | removeState other => exact apart
  | _ => rfl

theorem system_legacy {name : Name} {world after : World} {operation : Operation}
    {answer : Answer operation} (leaves : operation.leaves name = true)
    (step : system.Step world operation answer after) :
    after.legacy name = world.legacy name := by
  have same (equal : after = world) : after.legacy name = world.legacy name :=
    congrArg (fun world => world.legacy name) equal
  cases operation with
  | writeLedger r =>
      change Except String Unit at answer
      cases answer with
      | error message => exact same step
      | ok _ =>
          cases step
          rfl
  | writeState other content =>
      change Except String Unit at answer
      simp only [Operation.leaves, ne_eq, decide_not, Bool.not_eq_eq_eq_not,
        Bool.not_true, decide_eq_false_iff_not] at leaves
      cases answer with
      | error message => exact same step
      | ok _ =>
          cases step
          exact Function.update_of_ne (Ne.symm leaves) _ _
  | removeState other =>
      change Except String Unit at answer
      simp only [Operation.leaves, ne_eq, decide_not, Bool.not_eq_eq_eq_not,
        Bool.not_true, decide_eq_false_iff_not] at leaves
      cases answer with
      | error message => exact same step
      | ok _ =>
          cases step
          exact Function.update_of_ne (Ne.symm leaves) _ _
  | readLedger => exact same step.1
  | readState other => exact same step.1
  | globStates => exact same step.1
  | _ => exact same step

theorem Watched.apart {name : Name} {unhealthy : Option Bool}
    {results : List Bool} {file : Option Bytes} {past : Past interface World}
    {world after : World} {operation : Operation} {answer : Answer operation}
    (watched : Watched name unhealthy results file past world)
    (apart : operation.apart name = true)
    (step : system.Step world operation answer after) :
    Watched name unhealthy results file
      (⟨world, operation, answer, after⟩ :: past) after := by
  have noLedger : validatedLedger ⟨world, operation, answer, after⟩ = none := by
    cases operation with
    | writeLedger r => cases apart
    | _ => rfl
  have noResult : commandResult name ⟨world, operation, answer, after⟩ = none := by
    cases operation with
    | restart other =>
        simp only [Operation.apart, ne_eq, decide_not, Bool.not_eq_eq_eq_not,
          Bool.not_true, decide_eq_false_iff_not] at apart
        simp [commandResult, apart]
    | _ => rfl
  rcases watched with ⟨seen, results, file⟩
  constructor
  · rw [validatedLedgers, List.filterMap_cons_none noLedger]
    exact seen
  · rw [commandResults, List.filterMap_cons_none noResult]
    exact results
  · rw [system_legacy (Operation.leaves_of_apart apart) step]
    exact file

theorem surely_mono {α : Type} {name : Name} {attempt : Go α}
    {past : Past interface World} {world : World}
    {post better : Past interface World → World → α → Prop}
    (surely : Surely name post attempt past world)
    (onResult : ∀ past world result, post past world result →
      better past world result) : Surely name better attempt past world :=
  Attempt.mono surely onResult fun _ _ _ impossible => impossible

section Operations

variable {name : Name} {unhealthy : Option Bool} {results : List Bool}
  {file : Option Bytes} {past : Past interface World} {world : World} {α : Type}

/-- An operation whose answer goes to the caller. -/
theorem call_watched {operation : Operation}
    (watched : Watched name unhealthy results file past world)
    (apart : operation.apart name = true) :
    Surely name
      (fun past world _ => Watched name unhealthy results file past world)
      (ExceptT.lift (.call operation .done) : Go (Answer operation)) past world :=
  Attempt.lift_iff.mpr fun _ _ step =>
    ⟨trivial, watched.apart apart step.1⟩

/-- An operation whose error is the action's error. -/
theorem demand_watched {operation : Operation}
    {read : Answer operation → Except String α}
    (watched : Watched name unhealthy results file past world)
    (apart : operation.apart name = true) :
    Watching name
      (fun past world _ => Watched name unhealthy results file past world)
      (fun past world _ => Watched name unhealthy results file past world)
      (.ofProgram (.call operation fun answer => .done (read answer)))
      past world := by
  intro answer after step
  refine ⟨trivial, ?_⟩
  rw [Guarded.done_iff]
  cases read answer <;> exact watched.apart apart step.1

theorem writeTextfile_watched {r : Result} {budget : Int}
    (watched : Watched name unhealthy results file past world) :
    Surely name
      (fun past world _ => Watched name unhealthy results file past world)
      (writeTextfile r budget) past world := by
  rintro answer after ⟨step, written, _⟩
  have succeeded : answer = Except.ok () := written
  subst succeeded
  exact ⟨trivial, watched.apart rfl step⟩

/-- Publishing a ledger that agrees with what was seen of the container. -/
theorem publish_watched {cfg : Config} {r : Result} {seenNow : Option Bool}
    (watched : Watched name unhealthy results file past world)
    (agrees : Seen name unhealthy (validatedLedgers past) →
      (r.dockerReadOk = true → name ∈ r.containers) →
      Seen name seenNow
        ((if r.dockerReadOk then [r] else []) ++ validatedLedgers past)) :
    Surely name
      (fun past world _ => Watched name seenNow results file past world ∧
        (r.dockerReadOk = true → name ∈ r.containers))
      (publish cfg r) past world := by
  apply Attempt.bind_iff.mpr
  intro answer after ⟨step, written, lists⟩
  have succeeded : answer = Except.ok () := written
  subst succeeded
  have moved : after = { world with ledger := .document r } := step
  subst moved
  have listed : r.dockerReadOk = true → name ∈ r.containers := by
    intro readOk
    exact lists r (by simp [validatedLedger, readOk])
  refine ⟨trivial, ?_⟩
  change Surely name _ (writeTextfile r cfg.maxRestarts) _ _
  refine surely_mono (writeTextfile_watched ⟨?_, watched.results, watched.file⟩)
    fun _ _ _ watched => ⟨watched, listed⟩
  have seen := agrees watched.seen listed
  cases readOk : r.dockerReadOk <;>
    simpa [validatedLedgers, validatedLedger, readOk] using seen

/-- Publishing before the inventories are validated. -/
theorem publish_unread {cfg : Config} {r : Result}
    (unread : r.dockerReadOk = false)
    (watched : Watched name unhealthy results file past world) :
    Surely name
      (fun past world _ => Watched name unhealthy results file past world)
      (publish cfg r) past world := by
  apply surely_mono (publish_watched watched fun seen _ => by
    simpa [unread] using seen)
  exact fun _ _ _ published => published.1

theorem saveLegacy_watched {other : Name} {s : State}
    (watched : Watched name unhealthy results file past world) :
    Surely name
      (fun past world _ => Watched name unhealthy results
        (if other = name then some s.bytes else file) past world)
      (saveLegacy other s) past world := by
  rintro answer after ⟨step, written, _⟩
  have succeeded : answer = Except.ok () := written
  subst succeeded
  refine ⟨trivial, ?_⟩
  by_cases equal : other = name
  · subst equal
    cases step
    refine ⟨watched.seen, watched.results, ?_⟩
    simp
  · rw [if_neg equal]
    exact watched.apart (by simp [Operation.apart, equal]) step

theorem restartCommand_watched {other : Name}
    (watched : Watched name unhealthy results file past world) :
    Surely name
      (fun past world answer => Watched name unhealthy
        (if other = name then answer.isOk :: results else results) file past world)
      (restartCommand other) past world := by
  refine Attempt.lift_iff.mpr ?_
  rintro answer after ⟨step, _⟩
  refine ⟨trivial, ?_⟩
  by_cases equal : other = name
  · subst equal
    have same : after = world := step
    subst same
    refine ⟨watched.seen, ?_, watched.file⟩
    simpa [commandResults, commandResult] using watched.results
  · rw [Guarded.done_iff, if_neg equal]
    exact watched.apart (by simp [Operation.apart, equal]) step

/-- `orFail` around an action that does not fail. -/
theorem orFail_surely {cfg : Config} {r : Result} {action : Go α}
    {post : Past interface World → World → α → Prop}
    (surely : Surely name post action past world) :
    Surely name post (orFail cfg r action) past world := by
  refine Attempt.bind_iff.mpr (Attempt.outcome_iff.mpr ?_)
  refine Guarded.post_mono surely fun past world outcome holds => ?_
  cases outcome with
  | ok result => exact holds
  | error message => exact holds.elim

end Operations

/-! ## Inside the container loop -/

/-- The scan has read the container and holds `c` for it. -/
structure Held (name : Name) (c : Container) (results : List Bool)
    (file : Option Bytes) (past : Past interface World) (world : World)
    (r : Result) : Prop where
  watched : Watched name (some c.unhealthy) results file past world
  readOk : r.dockerReadOk = true
  container : r.container name = c

section Loop

variable {cfg : Config} {now : Int} {name target : Name} {c new : Container}
  {s planned : State} {results : List Bool} {file : Option Bytes}
  {past : Past interface World} {world : World} {r : Result}

theorem Held.set (held : Held name c results file past world r)
    (different : target ≠ name) :
    Held name c results file past world (r.setContainer target new) :=
  ⟨held.watched, held.readOk,
    (Result.container_setContainer_ne different new).trans held.container⟩

theorem Held.setSelf (new : Container)
    (held : Held name c results file past world r)
    (same : new.unhealthy = c.unhealthy) :
    Held name new results file past world (r.setContainer name new) :=
  ⟨same ▸ held.watched, held.readOk, Result.container_setContainer r name new⟩

theorem publish_held (held : Held name c results file past world r) :
    Surely name (fun past world _ => Held name c results file past world r)
      (publish cfg r) past world := by
  have agrees : Seen name (some c.unhealthy) (validatedLedgers past) →
      (r.dockerReadOk = true → name ∈ r.containers) →
      Seen name (some c.unhealthy)
        ((if r.dockerReadOk then [r] else []) ++ validatedLedgers past) := by
    intro ⟨nonempty, each⟩ _
    simp only [held.readOk, if_true]
    refine ⟨by simp, ?_⟩
    intro ledger member
    rcases List.mem_append.mp member with member | member
    · rw [List.mem_singleton.mp member, held.container]
    · exact each ledger member
  apply surely_mono (publish_watched held.watched agrees)
  intro past world _ published
  exact ⟨published.1, held.readOk, held.container⟩

theorem saveLegacy_held (held : Held name c results file past world r) :
    Surely name
      (fun past world _ => Held name c results
        (if target = name then some s.bytes else file) past world r)
      (orFail cfg r (saveLegacy target s)) past world := by
  apply orFail_surely
  apply surely_mono (saveLegacy_watched held.watched)
  intro past world _ watched
  exact ⟨watched, held.readOk, held.container⟩

theorem fail_held {α : Type} {message : String}
    {post : Past interface World → World → α → Prop}
    (held : Held name c results file past world r) :
    Watching name post
      (fun past world _ => Held name c results file past world r)
      (fail cfg r message) past world :=
  Attempt.bind (Attempt.mono (publish_held held) (fun _ _ _ held => held)
    fun _ _ _ impossible => impossible.elim) fun _ _ _ held => held

/-- `orFail` around an action that leaves the container alone. -/
theorem orFail_held {α : Type} {action : Go α}
    (held : Held name c results file past world r)
    (watched : Watching name
      (fun past world _ =>
        Watched name (some c.unhealthy) results file past world)
      (fun past world _ =>
        Watched name (some c.unhealthy) results file past world)
      action past world) :
    Watching name
      (fun past world _ => Held name c results file past world r)
      (fun past world _ => Held name c results file past world r)
      (orFail cfg r action) past world := by
  apply Attempt.bind_iff.mpr
  apply Attempt.outcome_iff.mpr
  apply Guarded.post_mono watched
  intro past₁ world₁ outcome watched₁
  cases outcome with
  | ok result => exact ⟨watched₁, held.readOk, held.container⟩
  | error message => exact fail_held ⟨watched₁, held.readOk, held.container⟩

theorem notify_held {title priority tags body : Bytes}
    (held : Held name c results file past world r) :
    Surely name (fun past world r => Held name c results file past world r)
      (notify cfg r title priority tags body) past world := by
  have counted : Held name c results file past world
      { r with notifications := r.notifications + 1 } :=
    ⟨held.watched, held.readOk, held.container⟩
  apply Attempt.bind (publish_held counted)
  intro past₁ world₁ _ held₁
  apply Attempt.bind (call_watched held₁.watched rfl)
  intro past₂ world₂ answer watched₂
  cases answer with
  | ok _ =>
      apply Attempt.bind (publish_held ⟨watched₂, held₁.readOk, held₁.container⟩)
      exact fun _ _ _ held₃ => held₃
  | error message =>
      apply Attempt.bind
        (publish_held (r := { r with
            notifications := r.notifications + 1
            notificationFailures := r.notificationFailures + 1 })
          ⟨watched₂, held₁.readOk, held₁.container⟩)
      exact fun _ _ _ held₃ => held₃

/-- After a restart command its result is saved and published. -/
theorem saveResult_held {rest : Go Result}
    {post : Past interface World → World → Result → Prop}
    (held : Held name c results file past world r)
    (next : ∀ past world,
      Held name c results (if target = name then some s.bytes else file) past
        world r → Surely name post rest past world) :
    Surely name post
      (orFail cfg r (saveLegacy target s) >>= fun _ => publish cfg r >>= fun _ => rest)
      past world := by
  apply Attempt.bind (saveLegacy_held held)
  intro past₁ world₁ _ held₁
  apply Attempt.bind (publish_held held₁)
  intro past₂ world₂ _ held₂
  exact next past₂ world₂ held₂

theorem tendRestart_other (different : target ≠ name)
    (held : Held name c results file past world r) :
    Surely name (fun past world r => Held name c results file past world r)
      (tendRestart cfg now planned r target new) past world := by
  have attempted : Held name c results file past world
      { r with attempts := r.attempts + 1 } :=
    ⟨held.watched, held.readOk, held.container⟩
  have unset (counted : Result) {past world} {s : State}
      (held : Held name c results (if target = name then some s.bytes else file)
        past world counted) : Held name c results file past world counted := by
    rw [if_neg different] at held
    exact held
  apply Attempt.bind (publish_held (attempted.set different))
  intro past₁ world₁ _ held₁
  apply Attempt.bind (restartCommand_watched held₁.watched)
  intro past₂ world₂ answer watched₂
  rw [if_neg different] at watched₂
  have held₂ : Held name c results file past₂ world₂ _ :=
    ⟨watched₂, held₁.readOk, held₁.container⟩
  cases answer with
  | ok _ =>
      apply saveResult_held
      · exact Held.set (r := { Result.setContainer _ target _ with
          restarts := _ }) ⟨watched₂, held₁.readOk, held₁.container⟩ different
      · intro past₃ world₃ held₃
        exact notify_held (unset _ held₃)
  | error message =>
      apply saveResult_held
      · exact Held.set (r := { Result.setContainer _ target _ with
          failures := _ }) ⟨watched₂, held₁.readOk, held₁.container⟩ different
      · intro past₃ world₃ held₃
        split
        · apply Attempt.bind (saveLegacy_held ((unset _ held₃).set different))
          intro past₄ world₄ _ held₄
          exact notify_held (unset _ held₄)
        · exact unset _ held₃

/-- The restart of the watched container itself. -/
theorem tendRestart_self (held : Held name c [] file past world r) :
    Surely name
      (fun past world r => ∃ results last,
        Held name last results (some last.state.bytes) past world r ∧
          last.unhealthy = c.unhealthy ∧ Commanded c.state now results last.state)
      (tendRestart cfg now planned r name c) past world := by
  have attempted : Held name c [] file past world
      { r with attempts := r.attempts + 1 } :=
    ⟨held.watched, held.readOk, held.container⟩
  have saved {last : Container} {results file past world counted} {s : State}
      (held : Held name last results (if name = name then some s.bytes else file)
        past world counted) :
      Held name last results (some s.bytes) past world counted := by
    rw [if_pos rfl] at held
    exact held
  let intended : Container := { c with restartFailed := true }
  apply Attempt.bind (publish_held (attempted.setSelf intended rfl))
  intro past₁ world₁ _ held₁
  apply Attempt.bind (restartCommand_watched held₁.watched)
  intro past₂ world₂ answer watched₂
  rw [if_pos rfl] at watched₂
  cases answer with
  | ok _ =>
      apply saveResult_held
      · exact Held.setSelf (r := { Result.setContainer _ name _ with
          restarts := _ }) _ ⟨watched₂, held₁.readOk, held₁.container⟩ rfl
      · intro past₃ world₃ held₃
        apply surely_mono (notify_held (saved held₃))
        intro past₄ world₄ r₄ held₄
        exact ⟨_, _, held₄, rfl, .restarted⟩
  | error message =>
      apply saveResult_held
      · exact Held.setSelf (r := { Result.setContainer _ name _ with
          failures := _ }) _ ⟨watched₂, held₁.readOk, held₁.container⟩ rfl
      · intro past₃ world₃ held₃
        split
        · let alerted : Container := { intended with
            state := { c.state with lastAlert := now } }
          apply Attempt.bind (saveLegacy_held ((saved held₃).setSelf alerted rfl))
          intro past₄ world₄ _ held₄
          apply surely_mono (notify_held (saved held₄))
          intro past₅ world₅ r₅ held₅
          exact ⟨_, alerted, held₅, rfl, .failed now (.inl rfl)⟩
        · exact ⟨_, _, saved held₃, rfl, .failed c.state.lastAlert (.inr rfl)⟩

theorem act_other {p : Plan} (different : target ≠ name)
    (held : Held name c results file past world r) :
    Surely name (fun past world r => Held name c results file past world r)
      (act cfg now p r target new) past world := by
  unfold act
  split
  · exact tendRestart_other different held
  · split
    · exact notify_held held
    · exact held
  · exact held

theorem act_self {p : Plan} (held : Held name c [] file past world r)
    (planned : c.state = p.state) (stored : Stored c.state file) :
    Surely name
      (fun past world r => ∃ results last file,
        Held name last results file past world r ∧
          last.unhealthy = c.unhealthy ∧ Stored last.state file ∧
          Settles p now results last.state)
      (act cfg now p r name c) past world := by
  unfold act
  split
  · rename_i restart
    rw [← planned]
    apply surely_mono (tendRestart_self held)
    intro past₁ world₁ r₁ ⟨results, last, held₁, same, command⟩
    rw [planned] at command
    exact ⟨results, last, _, held₁, same, rfl, .commanded restart command⟩
  · rename_i budget
    have idle : Settles p now [] c.state := by
      rw [planned]
      exact .idle (by simp [budget])
    split
    · apply surely_mono (notify_held held)
      intro past₁ world₁ r₁ held₁
      exact ⟨[], c, file, held₁, rfl, stored, idle⟩
    · exact ⟨[], c, file, held, rfl, stored, idle⟩
  · rename_i other _
    refine ⟨[], c, file, held, rfl, stored, ?_⟩
    rw [planned]
    exact .idle other

theorem tend_other {scan : Scan} (different : target ≠ name)
    (held : Held name c results file past world r) :
    Surely name (fun past world r => Held name c results file past world r)
      (tend cfg now scan r target) past world := by
  unfold tend
  split
  · apply Attempt.bind (saveLegacy_held held)
    intro past₁ world₁ _ held₁
    rw [if_neg different] at held₁
    exact act_other different held₁
  · exact act_other different held

theorem tend_self {scan : Scan} (held : Held name c [] file past world r)
    (planned : c.state = (scan.plan cfg now name).state)
    (unsaved : scan.known name = false → scan.bad name = false →
      Stored c.state file) :
    Surely name
      (fun past world r => ∃ results last file,
        Held name last results file past world r ∧
          last.unhealthy = c.unhealthy ∧ Stored last.state file ∧
          Settles (scan.plan cfg now name) now results last.state)
      (tend cfg now scan r name) past world := by
  unfold tend
  simp only [held.container]
  split
  · apply Attempt.bind (saveLegacy_held held)
    intro past₁ world₁ _ held₁
    rw [if_pos rfl] at held₁
    exact act_self held₁ planned rfl
  · rename_i idle
    simp only [Bool.or_eq_true, not_or, Bool.not_eq_true] at idle
    exact act_self held planned (unsaved idle.1 idle.2)

theorem tendAll_other {scan : Scan} {names : List Name}
    (different : name ∉ names) (held : Held name c results file past world r) :
    Surely name (fun past world r => Held name c results file past world r)
      (tendAll cfg now scan r names) past world := by
  induction names generalizing past world r with
  | nil => exact held
  | cons head rest induction =>
      simp only [List.mem_cons, not_or] at different
      apply Attempt.bind (tend_other (Ne.symm different.1) held)
      intro past₁ world₁ r₁ held₁
      exact induction different.2 held₁

theorem tendAll_self {scan : Scan} {names : List Name}
    (member : name ∈ names) (nodup : names.Nodup)
    (held : Held name c [] file past world r)
    (planned : c.state = (scan.plan cfg now name).state)
    (unsaved : scan.known name = false → scan.bad name = false →
      Stored c.state file) :
    Surely name
      (fun past world r => ∃ results last file,
        Held name last results file past world r ∧
          last.unhealthy = c.unhealthy ∧ Stored last.state file ∧
          Settles (scan.plan cfg now name) now results last.state)
      (tendAll cfg now scan r names) past world := by
  induction names generalizing past world r with
  | nil => cases member
  | cons head rest induction =>
      rw [List.nodup_cons] at nodup
      by_cases equal : head = name
      · subst equal
        apply Attempt.bind (tend_self held planned unsaved)
        intro past₁ world₁ r₁ ⟨results, last, file, held₁, same, stored, settles⟩
        apply surely_mono (tendAll_other nodup.1 held₁)
        intro past₂ world₂ r₂ held₂
        exact ⟨results, last, file, held₂, same, stored, settles⟩
      · have later : name ∈ rest := by
          rcases List.mem_cons.mp member with same | later
          · exact absurd same.symm equal
          · exact later
        apply Attempt.bind (tend_other equal held)
        intro past₁ world₁ r₁ held₁
        exact induction later nodup.2 held₁

/-- What is removed at the end belongs to other containers. -/
theorem collect_held {scan : Scan} {files : List Name}
    (member : name ∈ scan.all) (held : Held name c results file past world r) :
    Watching name
      (fun past world _ => Held name c results file past world r)
      (fun past world _ => Held name c results file past world r)
      (collect cfg scan r files) past world := by
  induction files generalizing past world with
  | nil => exact held
  | cons head rest induction =>
      unfold collect
      split
      · rename_i gone
        have different : head ≠ name := by
          intro equal
          subst equal
          simp [member] at gone
        apply Attempt.bind (orFail_held held
          (demand_watched held.watched (by simp [Operation.apart, different])))
        intro past₁ world₁ _ held₁
        exact induction held₁
      · exact induction held

end Loop

/-! ## A whole scan -/

theorem observed_lookup (cfg : Config) (now : Int) (scan : Scan) (r : Result)
    (name : Name) : (observed cfg now scan r).lookup name =
      if name ∈ scan.all then some (observe cfg now scan r name) else none := by
  rw [observed, lookup_foldl_insert]
  simp

structure ReadBack (name : Name) (names : List Name) (file : Option Bytes)
    (states : List (Name × State)) : Prop where
  recorded : ∀ s, states.lookup name = some s →
    ∃ content, file = some content ∧ parseState content = .ok s
  complete : name ∈ names → states.lookup name = none → file = none

def Operation.reads : Operation → Bool
  | .psUnhealthy => true
  | .psAll => true
  | .readState _ => true
  | _ => false

/-- Everything in the scan agrees with the container's state file. -/
structure Scanned (name : Name) (file : Option Bytes) (scan : Scan) : Prop where
  nodup : scan.all.Nodup
  readBack : ReadBack name scan.all file scan.states

section Reading

variable {narrow : System interface World} {inv : Past interface World → World → Prop}
  {name : Name} {file : Option Bytes} {past : Past interface World} {world : World}

theorem readStates_reads {names : List Name}
    (narrower : ∀ {world operation answer after}, narrow.Step world operation answer after →
      system.Step world operation answer after)
    (keeps : Keeps narrow (fun operation => operation.reads = true) (fun _ _ => True) inv)
    (legacy : ∀ {past world}, inv past world → world.legacy name = file)
    (start : inv past world) :
    Attempt.Guarded narrow (fun _ _ => True)
      (fun past world states => inv past world ∧ ReadBack name names file states)
      (fun past world _ => inv past world) (readStates names) past world := by
  induction names generalizing past world with
  | nil => exact ⟨start, by simp, by simp⟩
  | cons head rest induction =>
      rw [readStates, readState, Attempt.call_bind]
      intro answer after step
      have next := (keeps past world (.readState head) answer after rfl step start).2
      refine ⟨trivial, ?_⟩
      rcases narrower step with ⟨same, read⟩
      change StateRead at answer
      cases answer with
      | failed message => exact next
      | notExist =>
          apply Attempt.mono (induction next)
          · intro past₂ world₂ states ⟨holds, recorded, complete⟩
            refine ⟨holds, recorded, ?_⟩
            intro member absent
            rcases List.mem_cons.mp member with equal | later
            · subst equal
              rw [← legacy start]
              cases written : world.legacy name with
              | none => rfl
              | some content => simp [written] at read
            · exact complete later absent
          · exact fun _ _ _ holds => holds
      | data content =>
          apply Attempt.bind_iff.mpr
          apply Attempt.ofExcept_iff.mpr
          cases parsed : parseState content with
          | error message => exact next
          | ok s =>
              apply Attempt.bind_iff.mpr
              apply Attempt.mono (induction next)
              · intro past₂ world₂ states ⟨holds, recorded, complete⟩
                refine ⟨holds, ?_, ?_⟩
                · intro found lookup
                  rw [List.lookup_cons] at lookup
                  split at lookup
                  · rename_i equal
                    rw [beq_iff_eq] at equal
                    subst equal
                    cases lookup
                    refine ⟨content, ?_, parsed⟩
                    rw [← legacy start]
                    cases written : world.legacy name with
                    | none => simp [written] at read
                    | some found => simpa [written, eq_comm] using read
                  · exact recorded found lookup
                · intro member absent
                  rw [List.lookup_cons] at absent
                  split at absent
                  · cases absent
                  · rename_i different
                    rcases List.mem_cons.mp member with equal | later
                    · simp [equal] at different
                    · exact complete later absent
              · exact fun _ _ _ holds => holds

/-- A scan that is read agrees with the state files, and reading it changes nothing. -/
theorem readScan_reads
    (narrower : ∀ {world operation answer after}, narrow.Step world operation answer after →
      system.Step world operation answer after)
    (keeps : Keeps narrow (fun operation => operation.reads = true) (fun _ _ => True) inv)
    (legacy : ∀ {past world}, inv past world → world.legacy name = file)
    (start : inv past world) :
    Attempt.Guarded narrow (fun _ _ => True)
      (fun past world scan => inv past world ∧ Scanned name file scan)
      (fun past world _ => inv past world) readScan past world := by
  rw [readScan, psUnhealthy, Attempt.call_bind]
  intro first after₁ step₁
  have holds₁ := (keeps _ _ _ _ _ rfl step₁ start).2
  refine ⟨trivial, ?_⟩
  apply Attempt.bind_iff.mpr
  apply Attempt.ofExcept_iff.mpr
  cases namedError "watchdog: unhealthy inventory unavailable" first with
  | error message => exact holds₁
  | ok u =>
  simp only [Attempt.Ends]
  rw [psAll, Attempt.call_bind]
  intro second after₂ step₂
  have holds₂ := (keeps _ _ _ _ _ rfl step₂ holds₁).2
  refine ⟨trivial, ?_⟩
  apply Attempt.bind_iff.mpr
  apply Attempt.ofExcept_iff.mpr
  cases namedError "watchdog: full inventory unavailable" second with
  | error message => exact holds₂
  | ok a =>
  apply Attempt.bind_iff.mpr
  apply Attempt.ofExcept_iff.mpr
  cases names u with
  | error message => exact holds₂
  | ok unhealthy =>
  apply Attempt.bind_iff.mpr
  apply Attempt.ofExcept_iff.mpr
  cases listed : inventory a with
  | error message => exact holds₂
  | ok inventoried =>
  rcases inventoried with ⟨all, rows⟩
  simp only [Attempt.Ends]
  split
  · apply Attempt.bind (readStates_reads narrower keeps legacy holds₂)
    intro past₃ world₃ states ⟨holds₃, readBack⟩
    exact ⟨holds₃, inventory_nodup listed, readBack⟩
  · exact holds₂

end Reading

section Scans

variable {cfg : Config} {now : Int} {name : Name} {s : State}
  {unhealthy : Option Bool} {results : List Bool} {file : Option Bytes}
  {past : Past interface World} {world : World} {r : Result}

theorem readScan_watched
    (watched : Watched name unhealthy results file past world) :
    Watching name
      (fun past world scan => Watched name unhealthy results file past world ∧
        Scanned name file scan)
      (fun past world _ => Watched name unhealthy results file past world)
      readScan past world := by
  have narrower : ∀ {world operation answer after},
      (system.restrict fun moment => Written moment ∧ Lists name moment).Step world operation
        answer after → system.Step world operation answer after := fun step => step.1
  refine readScan_reads narrower ?_ (fun watched => watched.file) watched
  intro past world operation answer after reads step watched
  refine ⟨trivial, watched.apart ?_ step.1⟩
  cases operation with
  | psUnhealthy => rfl
  | psAll => rfl
  | readState other => rfl
  | _ => cases reads

/-- `orFail` before the inventories are validated. -/
theorem orFail_unread {α : Type} {action : Go α} {holds : α → Prop}
    (unread : r.dockerReadOk = false)
    (watched : Watching name
      (fun past world result => Watched name unhealthy results file past world ∧
        holds result)
      (fun past world _ => Watched name unhealthy results file past world)
      action past world) :
    Watching name
      (fun past world result => Watched name unhealthy results file past world ∧
        holds result)
      (fun past world _ => Watched name unhealthy results file past world)
      (orFail cfg r action) past world := by
  apply Attempt.bind_iff.mpr
  apply Attempt.outcome_iff.mpr
  apply Guarded.post_mono watched
  intro past₁ world₁ outcome ends
  cases outcome with
  | ok result => exact ends
  | error message =>
      apply Attempt.bind (Attempt.mono (publish_unread unread ends)
        (fun _ _ _ watched => watched) fun _ _ _ impossible => impossible.elim)
      exact fun _ _ _ watched => watched

theorem Scanned.state {scan : Scan} (scanned : Scanned name file scan)
    (member : name ∈ scan.all) (stored : Stored s file) (natural : s.Natural) :
    scan.state name = s := by
  cases lookup : scan.states.lookup name with
  | none =>
      have absent := scanned.readBack.complete member lookup
      rw [absent] at stored
      simp only [Scan.state, lookup, Option.getD_none]
      exact stored.symm
  | some found =>
      have ⟨content, present, parsed⟩ := scanned.readBack.recorded found lookup
      rw [present] at stored
      simp only [Stored] at stored
      rw [stored] at parsed
      simp only [Scan.state, lookup, Option.getD_some]
      exact parseState_bytes natural parsed

theorem State.decide_zero (now threshold budget cooldown : Int) :
    (State.zero.decide false now threshold budget cooldown).state = .zero := by
  simp [State.decide, State.decay, State.zero]

/-- A healthy container without a state file needs none. -/
theorem Scanned.unsaved {scan : Scan} (scanned : Scanned name file scan)
    (member : name ∈ scan.all) (stored : Stored s file) (natural : s.Natural)
    (unknown : scan.known name = false) (healthy : scan.bad name = false) :
    Stored (scan.plan cfg now name).state file := by
  have lookup : scan.states.lookup name = none := by
    simpa [Scan.known] using unknown
  have absent := scanned.readBack.complete member lookup
  rw [Scan.plan, scanned.state member stored natural, healthy]
  rw [absent] at stored ⊢
  rw [show s = .zero from stored]
  exact State.decide_zero _ _ _ _

/-- What a scan that ends leaves of a container that was in state `s`. -/
def Ended (cfg : Config) (now : Int) (name : Name) (s : State)
    (file : Option Bytes) (past : Past interface World) (world : World) : Prop :=
  Watched name none [] file past world ∨
    ∃ unhealthy results last file, 1 ≤ now ∧
      Watched name (some unhealthy) results file past world ∧ Stored last file ∧
      Settles (s.decide unhealthy now cfg.threshold cfg.maxRestarts cfg.cooldown)
        now results last

theorem actOn_ended {scan : Scan} (started : 1 ≤ now)
    (watched : Watched name none [] file past world)
    (scanned : Scanned name file scan) (stored : Stored s file)
    (natural : s.Natural) :
    Watching name
      (fun past world _ => Ended cfg now name s file past world)
      (fun past world _ => Ended cfg now name s file past world)
      (actOn cfg now scan r) past world := by
  let c := observe cfg now scan r name
  let first : Result :=
    { r with dockerReadOk := true, containers := observed cfg now scan r }
  have lookup := observed_lookup cfg now scan r name
  have holds (listed : name ∈ observed cfg now scan r) :
      name ∈ scan.all ∧ first.container name = c := by
    rw [← AList.lookup_isSome, lookup] at listed
    split at listed
    · rename_i member
      refine ⟨member, ?_⟩
      simp [first, Result.container, lookup, member, c]
    · cases listed
  have agrees (seen : Seen name none (validatedLedgers past))
      (listed : first.dockerReadOk = true → name ∈ first.containers) :
      Seen name (some c.unhealthy)
        ((if first.dockerReadOk then [first] else []) ++ validatedLedgers past) := by
    have none : validatedLedgers past = [] := seen
    simp [first, none, Seen, (holds (listed rfl)).2, c]
  have published : Surely name _ (publish cfg first) past world :=
    publish_watched watched agrees
  apply Attempt.bind (Attempt.mono published (fun _ _ _ holds => holds)
    fun _ _ _ impossible => impossible.elim)
  rintro past₁ world₁ _ ⟨watched₁, listed⟩
  rcases holds (listed rfl) with ⟨member, container⟩
  have state := scanned.state member stored natural
  have plan : scan.plan cfg now name = s.decide c.unhealthy now cfg.threshold
      cfg.maxRestarts cfg.cooldown := by
    rw [Scan.plan, state]
    rfl
  have ended {past world results last saved r}
      (held : Held name last results saved past world r)
      (same : last.unhealthy = c.unhealthy) (stored : Stored last.state saved)
      (settles : Settles (scan.plan cfg now name) now results last.state) :
      Ended cfg now name s file past world := by
    rw [plan] at settles
    exact .inr ⟨_, _, _, _, started, same ▸ held.watched, stored, settles⟩
  have held₁ : Held name c [] file past₁ world₁ first := ⟨watched₁, rfl, container⟩
  apply Attempt.bind (Attempt.mono
    (tendAll_self member scanned.nodup held₁ rfl
      (scanned.unsaved member stored natural))
    (fun _ _ _ holds => holds) fun _ _ _ impossible => impossible.elim)
  rintro past₂ world₂ r₂ ⟨results, last, file₂, held₂, same, stored₂, settles⟩
  have failing {α : Type} {attempt : Go α} {past world r}
      (guarded : Watching name
        (fun past world _ => Held name last results file₂ past world r)
        (fun past world _ => Held name last results file₂ past world r)
        attempt past world) :=
    Attempt.mono guarded (fun _ _ _ held => held)
      fun _ _ _ held => ended held same stored₂ settles
  apply Attempt.bind (failing (orFail_held held₂ (demand_watched held₂.watched rfl)))
  intro past₃ world₃ files held₃
  apply Attempt.bind (failing (collect_held member held₃))
  intro past₄ world₄ _ held₄
  have last₄ : Held name last results file₂ past₄ world₄
      { r₂ with success := true } :=
    ⟨held₄.watched, held₄.readOk, held₄.container⟩
  apply Attempt.mono (publish_held last₄)
  · intro past₅ world₅ _ held₅
    exact ended held₅ same stored₂ settles
  · exact fun _ _ _ impossible => impossible.elim

theorem checkConfig_started (checked : checkConfig cfg now = .ok ()) : 1 ≤ now := by
  unfold checkConfig at checked
  split at checked
  · cases checked
  · rename_i valid
    simp only [not_or, not_lt] at valid
    exact valid.2.2.2

/-- A whole run of `Execute` that is not killed. -/
theorem execute_ended (watched : Watched name none [] file past world)
    (stored : Stored s file) (natural : s.Natural) :
    Watching name
      (fun past world _ => Ended cfg now name s file past world)
      (fun past world _ => Ended cfg now name s file past world)
      (execute cfg now) past world := by
  apply Attempt.bind_iff.mpr
  apply Attempt.ofExcept_iff.mpr
  cases checked : checkConfig cfg now with
  | error message => exact .inl watched
  | ok _ =>
  have started := checkConfig_started checked
  apply Attempt.bind (Attempt.mono (call_watched watched rfl)
    (fun _ _ _ watched => watched) fun _ _ _ impossible => impossible.elim)
  intro past₁ world₁ read watched₁
  apply Attempt.bind_iff.mpr
  apply Attempt.ofExcept_iff.mpr
  cases acceptLedger read with
  | error message => exact .inl watched₁
  | ok r =>
  apply Attempt.bind (Attempt.mono (demand_watched watched₁ rfl)
    (fun _ _ _ watched => watched) fun _ _ _ watched => .inl watched)
  intro past₂ world₂ _ watched₂
  apply Attempt.bind (Attempt.mono
    (orFail_unread rfl (readScan_watched watched₂))
    (fun _ _ _ holds => holds) fun _ _ _ watched => .inl watched)
  intro past₃ world₃ scan ⟨watched₃, scanned⟩
  exact actOn_ended started watched₃ scanned stored natural

end Scans

/-! ## Runs -/

/-- The inventories were read and validated in this run. -/
def validated (run : ScanRun) : Bool :=
  !(validatedLedgers run.moments).isEmpty

/-- Every validated inventory this run published says `name` is unhealthy. -/
def ObservedUnhealthy (name : Name) (run : ScanRun) : Prop :=
  ∀ r ∈ validatedLedgers run.moments, (r.container name).unhealthy = true

/-- A run that was not killed and wrote all its files either validated no
inventory and left the container alone, or settled it in one step. -/
theorem run_settles {name : Name} {s : State} {run : ScanRun}
    (valid : run.Valid
      (system.restrict fun moment => Written moment ∧ Lists name moment)
      fun scan => (execute scan.1 scan.2).run)
    (completed : run.Completed) (stored : Stored s (run.before.legacy name))
    (natural : s.Natural) :
    (validated run = false ∧ commandResults name run.moments = [] ∧
      Stored s (run.after.legacy name)) ∨
    ∃ unhealthy last, 1 ≤ run.parameter.2 ∧ validated run = true ∧
      (∀ r ∈ validatedLedgers run.moments,
        (r.container name).unhealthy = unhealthy) ∧
      Stored last (run.after.legacy name) ∧
      Settles (s.decide unhealthy run.parameter.2 run.parameter.1.threshold
          run.parameter.1.maxRestarts run.parameter.1.cooldown)
        run.parameter.2 (commandResults name run.moments) last := by
  rcases Option.isSome_iff_exists.mp completed with ⟨value, returned⟩
  unfold Run.Valid at valid
  rw [returned] at valid
  have start : Watched name none [] (run.before.legacy name) [] run.before :=
    ⟨rfl, rfl, rfl⟩
  have result := (execute_ended start stored natural).result valid
  have ended : Ended run.parameter.1 run.parameter.2 name s
      (run.before.legacy name) run.moments.reverse run.after := by
    rw [List.append_nil] at result
    cases value <;> exact result
  rcases ended with ⟨seen, results, file⟩ |
    ⟨unhealthy, results, last, saved, started, ⟨seen, same, file⟩, stored', settles⟩
  · left
    simp only [validatedLedgers, commandResults, List.filterMap_reverse,
      List.reverse_eq_nil_iff, Seen] at seen results
    refine ⟨by simp [validated, validatedLedgers, seen], results, ?_⟩
    rw [file]
    exact stored
  · right
    have ordered : commandResults name run.moments = results := by
      rw [commandResults, List.filterMap_reverse, ← commandResults,
        List.reverse_eq_iff] at same
      rw [same]
      cases settles with
      | idle => rfl
      | commanded _ command => cases command <;> rfl
    simp only [validatedLedgers, List.filterMap_reverse, Seen, ne_eq,
      List.reverse_eq_nil_iff, List.mem_reverse] at seen
    rw [ordered, file]
    refine ⟨unhealthy, last, started, ?_, seen.2, stored', settles⟩
    have read : validatedLedgers run.moments ≠ [] := seen.1
    simpa [validated] using read

end Homelab.Watchdog
