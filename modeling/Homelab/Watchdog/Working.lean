import Homelab.Watchdog.Tend

/-! # A scan of a host on which everything works

No file fails, both listings can be read, and what a restart gives is settled for each
container. Such a scan always comes to its end, and what it leaves of a container follows from
the state file, the health and the restart of that container alone.
-/

namespace Homelab.Watchdog

open Effects ByteText

/-- Both listings, and whether the restart of a container works. -/
structure Docker where
  unhealthy : Bytes
  full : Bytes
  restarts : Name → Bool

/-- Files work, and commands answer as `docker` says. What the notification helper answers is
left open. -/
def Works (docker : Docker) (moment : Moment interface World) : Prop :=
  match moment.operation, moment.answer with
  | .readLedger, (answer : LedgerRead) => answer = moment.before.ledger.read
  | .psUnhealthy, (answer : Except String Bytes) => answer = .ok docker.unhealthy
  | .psAll, (answer : Except String Bytes) => answer = .ok docker.full
  | .readState _, (answer : StateRead) => ∀ message, answer ≠ .failed message
  | .restart name, (answer : Except String Unit) => answer.isOk = docker.restarts name
  | .notifyHelper _ _ _ _, _ => True
  | .globStates, (answer : Except String (List Name)) =>
      ∃ files, answer = .ok files ∧
        ∀ name, name ∈ files ↔ (moment.before.legacy name).isSome = true
  | .openLog, (answer : Except String Unit) => answer = .ok ()
  | .writeState _ _, (answer : Except String Unit) => answer = .ok ()
  | .writeLedger _, (answer : Except String Unit) => answer = .ok ()
  | .writeTextfile _ _, (answer : Except String Unit) => answer = .ok ()
  | .removeState _, (answer : Except String Unit) => answer = .ok ()

abbrev Finishes {α : Type} (docker : Docker) (post : Past interface World → World → α → Prop)
    (attempt : Go α) (past : Past interface World) (world : World) : Prop :=
  Attempt.Guarded (system.restrict (Works docker)) (fun _ _ => True) post
    (fun _ _ _ => False) attempt past world

/-- The state file of a container, and the results of its restarts, latest first. -/
structure Tracked (name : Name) (file : Option Bytes) (results : List Bool)
    (past : Past interface World) (world : World) : Prop where
  file : world.legacy name = file
  results : commandResults name past = results

/-- The operation neither touches the state file of the container nor restarts it. -/
def Operation.skips (name : Name) : Operation → Bool
  | .restart other => other ≠ name
  | operation => operation.leaves name

theorem Operation.skips_leaves {name : Name} {operation : Operation}
    (skips : operation.skips name = true) : operation.leaves name = true := by
  cases operation with
  | restart other => rfl
  | _ => exact skips

section Tracking

variable {docker : Docker} {name target : Name} {file : Option Bytes} {results : List Bool}
  {past : Past interface World} {world : World} {α : Type}

theorem Tracked.next {after : World} {operation : Operation} {answer : Answer operation}
    (tracked : Tracked name file results past world) (skips : operation.skips name = true)
    (step : system.Step world operation answer after) :
    Tracked name file results (⟨world, operation, answer, after⟩ :: past) after := by
  have silent : commandResult name ⟨world, operation, answer, after⟩ = none := by
    cases operation with
    | restart other =>
        have different : other ≠ name := of_decide_eq_true skips
        simp [commandResult, different]
    | _ => rfl
  constructor
  · rw [system_legacy (Operation.skips_leaves skips) step]
    exact tracked.file
  · rw [commandResults, List.filterMap_cons_none silent]
    exact tracked.results

theorem finishes_mono {attempt : Go α} {post better : Past interface World → World → α → Prop}
    (finishes : Finishes docker post attempt past world)
    (onResult : ∀ past world result, post past world result → better past world result) :
    Finishes docker better attempt past world :=
  Attempt.mono finishes onResult fun _ _ _ impossible => impossible

/-- `orFail` around an action that does not fail. -/
theorem orFail_finishes {cfg : Config} {r : Result} {action : Go α}
    {post : Past interface World → World → α → Prop}
    (finishes : Finishes docker post action past world) :
    Finishes docker post (orFail cfg r action) past world := by
  refine Attempt.bind_iff.mpr (Attempt.outcome_iff.mpr ?_)
  refine Guarded.post_mono finishes fun past world outcome holds => ?_
  cases outcome with
  | ok result => exact holds
  | error message => exact holds.elim

/-! ## Writing results -/

theorem publish_tracked {cfg : Config} {r : Result}
    (tracked : Tracked name file results past world) :
    Finishes docker (fun past world _ => Tracked name file results past world)
      (publish cfg r) past world := by
  apply Attempt.bind_iff.mpr
  intro answer₁ after₁ ⟨step₁, works₁⟩
  have written : answer₁ = Except.ok () := works₁
  subst written
  refine ⟨trivial, ?_⟩
  have tracked₁ := tracked.next rfl step₁
  intro answer₂ after₂ ⟨step₂, works₂⟩
  have exported : answer₂ = Except.ok () := works₂
  subst exported
  exact ⟨trivial, tracked₁.next rfl step₂⟩

theorem saveLegacy_tracked {cfg : Config} {r : Result} {s : State}
    (tracked : Tracked name file results past world) :
    Finishes docker
      (fun past world _ => Tracked name (if target = name then some s.bytes else file) results
        past world)
      (orFail cfg r (saveLegacy target s)) past world := by
  apply orFail_finishes
  intro answer after ⟨step, works⟩
  have written : answer = Except.ok () := works
  subst written
  refine ⟨trivial, ?_⟩
  by_cases same : target = name
  · subst same
    cases step
    rw [if_pos rfl]
    exact ⟨Function.update_self _ _ _, tracked.results⟩
  · rw [if_neg same]
    exact tracked.next (decide_eq_true same) step

theorem notify_tracked {cfg : Config} {r : Result} {title priority tags body : Bytes}
    (tracked : Tracked name file results past world) :
    Finishes docker (fun past world _ => Tracked name file results past world)
      (notify cfg r title priority tags body) past world := by
  apply Attempt.bind (publish_tracked tracked)
  intro past₁ world₁ _ tracked₁
  rw [notifyCommand, Attempt.call_bind]
  intro answer after ⟨step, _⟩
  refine ⟨trivial, ?_⟩
  have tracked₂ := tracked₁.next rfl step
  change Except String Unit at answer
  cases answer with
  | ok _ =>
      apply Attempt.bind (publish_tracked tracked₂)
      exact fun _ _ _ tracked₃ => tracked₃
  | error message =>
      apply Attempt.bind (publish_tracked tracked₂)
      exact fun _ _ _ tracked₃ => tracked₃

theorem restartCommand_tracked (tracked : Tracked name file results past world) :
    Finishes docker
      (fun past world answer => answer.isOk = docker.restarts target ∧
        Tracked name file (if target = name then docker.restarts name :: results else results)
          past world)
      (restartCommand target) past world := by
  refine Attempt.lift_iff.mpr ?_
  intro answer after ⟨step, works⟩
  refine ⟨trivial, works, ?_⟩
  by_cases same : target = name
  · subst same
    have unmoved : after = world := step
    subst unmoved
    have told : commandResult target ⟨after, .restart target, answer, after⟩ =
        some (docker.restarts target) := by
      change (if target = target then some answer.isOk else none) = _
      rw [if_pos rfl]
      exact congrArg some works
    rw [if_pos rfl, ← tracked.results]
    exact ⟨tracked.file, List.filterMap_cons_some told⟩
  · rw [if_neg same]
    exact tracked.next (decide_eq_true same) step

end Tracking

/-! ## One container -/

/-- The state that a scan leaves of a container: a failed restart is paged for once the cooldown
is over. -/
def Plan.left (p : Plan) (cfg : Config) (now : Int) (restarts : Bool) : State :=
  match p.action with
  | .restart =>
      if restarts then p.state.restarted now
      else if cfg.cooldown ≤ now - p.state.lastAlert then { p.state with lastAlert := now }
      else p.state
  | _ => p.state

section Tending

variable {docker : Docker} {cfg : Config} {now : Int} {scan : Scan} {name target : Name}
  {file : Option Bytes} {results : List Bool} {past : Past interface World} {world : World}
  {r : Result} {c : Container} {planned : State}

/-- The file after a write for `target`. -/
theorem Tracked.rewritten {first last : Bytes}
    (tracked : Tracked name (if target = name then some last else
      if target = name then some first else file) results past world) :
    Tracked name (if target = name then some last else file) results past world := by
  by_cases same : target = name
  · simpa [same] using tracked
  · simpa [same] using tracked

theorem tendRestart_tracked {p : Plan} (restart : p.action = .restart)
    (state : c.state = p.state) (tracked : Tracked name file results past world) :
    Finishes docker
      (fun past world _ => Tracked name
        (if target = name then some (p.left cfg now (docker.restarts target)).bytes else file)
        (if target = name then docker.restarts name :: results else results) past world)
      (tendRestart cfg now planned r target c) past world := by
  apply Attempt.bind (publish_tracked tracked)
  intro past₁ world₁ _ tracked₁
  apply Attempt.bind (restartCommand_tracked tracked₁)
  intro past₂ world₂ answer ⟨outcome, tracked₂⟩
  rw [← outcome] at *
  cases answer with
  | ok _ =>
      have left : p.left cfg now true = c.state.restarted now := by
        simp [Plan.left, restart, state]
      simp only [Except.isOk, Except.toBool, left]
      apply Attempt.bind (saveLegacy_tracked tracked₂)
      intro past₃ world₃ _ tracked₃
      apply Attempt.bind (publish_tracked tracked₃)
      intro past₄ world₄ _ tracked₄
      exact notify_tracked tracked₄
  | error message =>
      apply Attempt.bind (saveLegacy_tracked tracked₂)
      intro past₃ world₃ _ tracked₃
      apply Attempt.bind (publish_tracked tracked₃)
      intro past₄ world₄ _ tracked₄
      by_cases due : cfg.cooldown ≤ now - c.state.lastAlert
      · have left : p.left cfg now false = { c.state with lastAlert := now } := by
          rw [state] at due
          simp [Plan.left, restart, state, due]
        simp only [Except.isOk, Except.toBool, left, if_pos due]
        apply Attempt.bind (saveLegacy_tracked tracked₄)
        intro past₅ world₅ _ tracked₅
        exact notify_tracked tracked₅.rewritten
      · have left : p.left cfg now false = c.state := by
          rw [state] at due
          simp [Plan.left, restart, state, due]
        simp only [Except.isOk, Except.toBool, left, if_neg due]
        exact tracked₄

theorem Plan.left_idle {p : Plan} {restarts : Bool} (idle : p.action ≠ .restart) :
    p.left cfg now restarts = p.state := by
  unfold Plan.left
  split
  · next restart => exact absurd restart idle
  · rfl

/-- What is done about `target` shows in its own file and restarts only. -/
theorem act_tracked {p : Plan} (state : c.state = p.state)
    (tracked : Tracked name (if target = name then some c.state.bytes else file) results past
      world) :
    Finishes docker
      (fun past world _ => Tracked name
        (if target = name then some (p.left cfg now (docker.restarts target)).bytes else file)
        (if target = name ∧ p.action = .restart then docker.restarts name :: results
          else results) past world)
      (act cfg now p r target c) past world := by
  have idle (other : p.action ≠ .restart) {past world}
      (tracked : Tracked name (if target = name then some c.state.bytes else file) results past
        world) :
      Tracked name
        (if target = name then some (p.left cfg now (docker.restarts target)).bytes else file)
        (if target = name ∧ p.action = .restart then docker.restarts name :: results
          else results) past world := by
    simpa only [Plan.left_idle other, ← state, other, and_false, if_false] using tracked
  rw [act]
  cases action : p.action with
  | restart =>
      refine finishes_mono (tendRestart_tracked action state tracked) ?_
      intro past₁ world₁ _ tracked₁
      simp only [and_true]
      exact tracked₁.rewritten
  | budget =>
      have kept {past world} := @idle (by simp [action]) past world
      rw [action] at kept
      by_cases due : p.notify = true
      · simp only [if_pos due]
        exact finishes_mono (notify_tracked tracked) fun _ _ _ holds => kept holds
      · simp only [if_neg due]
        exact kept tracked
  | none =>
      have kept := idle (by simp [action]) tracked
      rw [action] at kept
      exact kept
  | wait =>
      have kept := idle (by simp [action]) tracked
      rw [action] at kept
      exact kept

/-- A container without a state file that is well gets none. -/
def Scan.fileLeft (scan : Scan) (cfg : Config) (now : Int) (restarts : Bool) (name : Name)
    (file : Option Bytes) : Option Bytes :=
  if scan.known name || scan.bad name then
    some ((scan.plan cfg now name).left cfg now restarts).bytes
  else file

/-- Only what is unhealthy is restarted. -/
theorem plan_restart_bad (restart : (scan.plan cfg now name).action = .restart) :
    scan.bad name = true := (State.decide_restart restart).1

theorem tend_tracked (state : (r.container target).state = (scan.plan cfg now target).state)
    (tracked : Tracked name file results past world) :
    Finishes docker
      (fun past world last => Tracked name
        (if target = name then
          scan.fileLeft cfg now (docker.restarts name) name file else file)
        (if target = name ∧ (scan.plan cfg now name).action = .restart then
          docker.restarts name :: results else results) past world ∧
        Result.SameBut target r last)
      (tend cfg now scan r target) past world := by
  have acted : Finishes docker
      (fun past world _ => Tracked name
        (if target = name then
          scan.fileLeft cfg now (docker.restarts name) name file else file)
        (if target = name ∧ (scan.plan cfg now name).action = .restart then
          docker.restarts name :: results else results) past world)
      (tend cfg now scan r target) past world := by
    unfold tend
    by_cases saved : (scan.known target || scan.bad target) = true
    · rw [if_pos saved]
      apply Attempt.bind (saveLegacy_tracked tracked)
      intro past₁ world₁ _ tracked₁
      refine finishes_mono (act_tracked state tracked₁) ?_
      intro past₂ world₂ _ tracked₂
      by_cases same : target = name
      · subst same
        rw [Scan.fileLeft, if_pos saved]
        exact tracked₂
      · simpa [same] using tracked₂
    · rw [if_neg saved]
      simp only [Bool.or_eq_true, not_or, Bool.not_eq_true] at saved
      have idle : (scan.plan cfg now target).action = .none := by
        simp [Scan.plan, saved.2, State.decide]
      unfold act
      rw [idle]
      change Tracked _ _ _ _ _
      by_cases same : target = name
      · subst same
        simpa [Scan.fileLeft, saved, idle] using tracked
      · simpa [same] using tracked
  have keeps : Keeps (system.restrict (Works docker))
      (fun operation : Operation => operation.tends target = true) (fun _ _ => True)
      (fun _ _ => True) := fun _ _ _ _ _ _ _ _ => ⟨trivial, trivial⟩
  have tends : Tending target (Result.SameBut target r) (tend cfg now scan r target) := tend_tends
  refine Effects.Guarded.mono (Attempt.both acted (tends.guarded keeps trivial))
    (fun _ _ _ => trivial) ?_
  intro past₁ world₁ outcome holds
  cases outcome with
  | ok last => exact ⟨holds.1, holds.2.2⟩
  | error message => exact holds.1

theorem tendAll_tracked {names : List Name} (nodup : names.Nodup)
    (planned : ∀ target ∈ names,
      (r.container target).state = (scan.plan cfg now target).state)
    (tracked : Tracked name file results past world) :
    Finishes docker
      (fun past world _ => Tracked name
        (if name ∈ names then scan.fileLeft cfg now (docker.restarts name) name file else file)
        (if name ∈ names ∧ (scan.plan cfg now name).action = .restart then
          docker.restarts name :: results else results) past world)
      (tendAll cfg now scan r names) past world := by
  induction names generalizing past world r file results with
  | nil =>
      simp only [List.not_mem_nil, false_and, if_false]
      exact tracked
  | cons head rest induction =>
      rw [List.nodup_cons] at nodup
      apply Attempt.bind (tend_tracked (planned head List.mem_cons_self) tracked)
      rintro past₁ world₁ middle ⟨tracked₁, same⟩
      have later : ∀ target ∈ rest,
          (middle.container target).state = (scan.plan cfg now target).state := by
        intro target member
        have different : head ≠ target := fun equal => nodup.1 (equal ▸ member)
        rw [same target different]
        exact planned target (List.mem_cons_of_mem _ member)
      refine finishes_mono (induction nodup.2 later tracked₁) ?_
      intro past₂ world₂ _ tracked₂
      by_cases equal : head = name
      · subst equal
        simpa [nodup.1] using tracked₂
      · simpa [equal, Ne.symm equal] using tracked₂

theorem collect_tracked {files : List Name} (tracked : Tracked name file results past world) :
    Finishes docker
      (fun past world _ => Tracked name
        (if name ∈ files ∧ namePattern name = true ∧ name ∉ scan.all then none else file) results
        past world)
      (collect cfg scan r files) past world := by
  induction files generalizing past world file with
  | nil =>
      simp only [List.not_mem_nil, false_and, if_false]
      exact tracked
  | cons head rest induction =>
      unfold collect
      by_cases gone : (namePattern head && !decide (head ∈ scan.all)) = true
      · rw [if_pos gone]
        have removed : Finishes docker
            (fun past world _ => Tracked name (if head = name then none else file) results past
              world)
            (orFail cfg r (removeState head)) past world := by
          apply orFail_finishes
          intro answer after ⟨step, works⟩
          have done : answer = Except.ok () := works
          subst done
          refine ⟨trivial, ?_⟩
          by_cases same : head = name
          · subst same
            cases step
            rw [if_pos rfl]
            exact ⟨Function.update_self _ _ _, tracked.results⟩
          · rw [if_neg same]
            exact tracked.next (decide_eq_true same) step
        apply Attempt.bind removed
        intro past₁ world₁ _ tracked₁
        refine finishes_mono (induction tracked₁) ?_
        intro past₂ world₂ _ tracked₂
        rw [Bool.and_eq_true, Bool.not_eq_true', decide_eq_false_iff_not] at gone
        by_cases equal : head = name
        · subst equal
          simpa [gone] using tracked₂
        · simpa [equal, Ne.symm equal] using tracked₂
      · rw [if_neg gone]
        refine finishes_mono (induction tracked) ?_
        intro past₂ world₂ _ tracked₂
        rw [Bool.and_eq_true, Bool.not_eq_true', decide_eq_false_iff_not] at gone
        by_cases equal : head = name
        · subst equal
          simpa [gone] using tracked₂
        · simpa [Ne.symm equal] using tracked₂

end Tending

/-! ## Reading -/

/-- Nothing was changed so far, and no container was restarted. -/
structure Pristine (start : World) (past : Past interface World) (world : World) : Prop where
  world : world = start
  idle : ∀ name, commandResults name past = []

def Readable (world : World) : Prop :=
  ∀ name content, world.legacy name = some content → ∃ s, parseState content = .ok s

section Reading

variable {docker : Docker} {start : World} {past : Past interface World} {world : World}

theorem Pristine.next {operation : Operation} {answer : Answer operation} {after : World}
    (pristine : Pristine start past world)
    (skips : ∀ name, operation.skips name = true) (same : after = world) :
    Pristine start (⟨world, operation, answer, after⟩ :: past) after := by
  refine ⟨same.trans pristine.world, fun name => ?_⟩
  have silent : commandResult name ⟨world, operation, answer, after⟩ = none := by
    cases operation with
    | restart other =>
        have different : other ≠ name := of_decide_eq_true (skips name)
        simp [commandResult, different]
    | _ => rfl
  rw [commandResults, List.filterMap_cons_none silent]
  exact pristine.idle name

theorem readStates_pristine {names : List Name} (readable : Readable start)
    (pristine : Pristine start past world) :
    Finishes docker
      (fun past world states => Pristine start past world ∧ ∀ name, states.lookup name =
        if name ∈ names then (start.legacy name).map fun content => stateOf (some content)
        else none)
      (readStates names) past world := by
  induction names generalizing past world with
  | nil => exact ⟨pristine, by simp⟩
  | cons head rest induction =>
      refine Attempt.call_bind.mpr ?_
      rintro answer after ⟨⟨same, read⟩, works⟩
      refine ⟨trivial, ?_⟩
      have pristine₁ : Pristine start (⟨world, .readState head, answer, after⟩ :: past) after :=
        pristine.next (fun _ => rfl) same
      cases present : start.legacy head with
      | none =>
          have answered : answer = .notExist := by
            rw [← pristine.world] at present
            rcases read with ⟨message, failed⟩ | read
            · exact absurd failed (works message)
            · rwa [present] at read
          subst answered
          refine finishes_mono (induction pristine₁) ?_
          rintro past₂ world₂ states ⟨pristine₂, lookup⟩
          refine ⟨pristine₂, fun name => ?_⟩
          rw [lookup]
          by_cases equal : name = head
          · subst equal
            simp [present]
          · simp [equal]
      | some content =>
          have answered : answer = .data content := by
            rw [← pristine.world] at present
            rcases read with ⟨message, failed⟩ | read
            · exact absurd failed (works message)
            · rwa [present] at read
          subst answered
          rcases readable head content present with ⟨s, parsed⟩
          simp only [parsed]
          apply Attempt.bind_iff.mpr
          apply Attempt.ofExcept_iff.mpr
          apply Attempt.bind (induction pristine₁)
          rintro past₂ world₂ states ⟨pristine₂, lookup⟩
          refine ⟨pristine₂, fun name => ?_⟩
          rw [List.lookup_cons]
          by_cases equal : name = head
          · subst equal
            simp [present, stateOf_parsed parsed]
          · have apart : (name == head) = false := beq_false_of_ne equal
            rw [apart, lookup]
            simp [equal]

/-- Both listings are accepted and agree with each other. -/
structure Docker.Lists (docker : Docker) (unhealthy all : List Name) (rows : Rows) : Prop where
  bad : names docker.unhealthy = .ok unhealthy
  full : inventory docker.full = .ok (all, rows)
  agree : consistent unhealthy all rows

structure Scan.Reads (scan : Scan) (unhealthy all : List Name) (start : World) : Prop where
  bad : scan.unhealthy = unhealthy
  listed : scan.all = all
  states : ∀ name ∈ scan.all, scan.states.lookup name =
    (start.legacy name).map fun content => stateOf (some content)

theorem readScan_pristine {unhealthy all : List Name} {rows : Rows}
    (lists : docker.Lists unhealthy all rows) (readable : Readable start)
    (pristine : Pristine start past world) :
    Finishes docker
      (fun past world scan => Pristine start past world ∧ scan.Reads unhealthy all start)
      readScan past world := by
  refine Attempt.call_bind.mpr ?_
  rintro u after₁ ⟨step₁, works₁⟩
  have first : u = Except.ok docker.unhealthy := works₁
  subst first
  have pristine₁ : Pristine start (⟨world, .psUnhealthy, .ok docker.unhealthy, after₁⟩ :: past)
      after₁ := pristine.next (fun _ => rfl) step₁
  refine ⟨trivial, ?_⟩
  apply Attempt.bind_iff.mpr
  apply Attempt.ofExcept_iff.mpr
  simp only [namedError, Attempt.Ends]
  refine Attempt.call_bind.mpr ?_
  rintro a after₂ ⟨step₂, works₂⟩
  have second : a = Except.ok docker.full := works₂
  subst second
  have pristine₂ : Pristine start (⟨after₁, .psAll, .ok docker.full, after₂⟩ ::
      ⟨world, .psUnhealthy, .ok docker.unhealthy, after₁⟩ :: past) after₂ :=
    pristine₁.next (fun _ => rfl) step₂
  refine ⟨trivial, ?_⟩
  simp only [lists.bad, lists.full, Attempt.ofExcept, pure_bind]
  rw [if_pos lists.agree]
  apply Attempt.bind (readStates_pristine readable pristine₂)
  rintro past₃ world₃ states ⟨pristine₃, lookup⟩
  refine ⟨pristine₃, rfl, rfl, fun name member => ?_⟩
  rw [lookup, if_pos member]

end Reading

/-! ## A whole scan -/

section Scanning

variable {docker : Docker} {cfg : Config} {now : Int} {start : World}
  {unhealthy all : List Name} {rows : Rows} {name : Name} {past : Past interface World}
  {world : World} {r : Result}

def Scan.fileAfter (scan : Scan) (cfg : Config) (now : Int) (restarts : Bool) (name : Name)
    (file : Option Bytes) : Option Bytes :=
  if name ∈ scan.all then scan.fileLeft cfg now restarts name file
  else if namePattern name then none else file

theorem actOn_tracked {scan : Scan} (nodup : scan.all.Nodup)
    (pristine : Pristine start past world) :
    Finishes docker
      (fun past world _ => Tracked name
        (scan.fileAfter cfg now (docker.restarts name) name (start.legacy name))
        (if name ∈ scan.all ∧ (scan.plan cfg now name).action = .restart then
          [docker.restarts name] else []) past world)
      (actOn cfg now scan r) past world := by
  have tracked : Tracked name (start.legacy name) [] past world :=
    ⟨by rw [pristine.world], pristine.idle name⟩
  apply Attempt.bind (publish_tracked tracked)
  intro past₁ world₁ _ tracked₁
  apply Attempt.bind (tendAll_tracked nodup (fun _ member => observed_planned member) tracked₁)
  intro past₂ world₂ last tracked₂
  have globbed : Finishes docker
      (fun past world files => Tracked name
          (if name ∈ scan.all then
            scan.fileLeft cfg now (docker.restarts name) name (start.legacy name)
          else start.legacy name)
          (if name ∈ scan.all ∧ (scan.plan cfg now name).action = .restart then
            [docker.restarts name] else []) past world ∧
        (name ∈ files ↔ (world.legacy name).isSome))
      (orFail cfg last globStates) past₂ world₂ := by
    apply orFail_finishes
    intro answer after ⟨step, works⟩
    change Except String (List Name) at answer
    have ⟨files, same, listed⟩ := works
    subst same
    have unmoved : after = world₂ := step.1
    refine ⟨trivial, tracked₂.next rfl step, ?_⟩
    rw [unmoved]
    exact listed name
  apply Attempt.bind globbed
  intro past₃ world₃ files ⟨tracked₃, member⟩
  apply Attempt.bind (collect_tracked tracked₃)
  intro past₄ world₄ _ tracked₄
  refine finishes_mono (publish_tracked tracked₄) ?_
  intro past₅ world₅ _ tracked₅
  rw [tracked₃.file] at member
  have file : (if name ∈ files ∧ namePattern name = true ∧ name ∉ scan.all then none
      else if name ∈ scan.all then
        scan.fileLeft cfg now (docker.restarts name) name (start.legacy name)
      else start.legacy name) =
      scan.fileAfter cfg now (docker.restarts name) name (start.legacy name) := by
    rw [Scan.fileAfter]
    by_cases there : name ∈ scan.all
    · simp [there]
    · simp only [there, if_false, not_false_eq_true, and_true] at member ⊢
      by_cases valid : namePattern name = true
      · simp only [valid, and_true, if_true, member]
        cases start.legacy name <;> rfl
      · simp [valid]
  rw [← file]
  exact tracked₅

def Config.planOf (cfg : Config) (now : Int) (file : Option Bytes) (unhealthy : Bool) : Plan :=
  (stateOf file).decide unhealthy now cfg.threshold cfg.maxRestarts cfg.cooldown

/-- What a scan leaves of a container, from its file, its health and its restart. -/
def Config.fileAfter (cfg : Config) (now : Int) (file : Option Bytes)
    (unhealthy restarts : Bool) : Option Bytes :=
  if file.isSome ∨ unhealthy = true then
    some ((cfg.planOf now file unhealthy).left cfg now restarts).bytes
  else none

theorem Scan.Reads.plan {scan : Scan} (reads : scan.Reads unhealthy all start)
    (member : name ∈ scan.all) :
    scan.plan cfg now name = cfg.planOf now (start.legacy name) (decide (name ∈ unhealthy)) := by
  have state : scan.state name = stateOf (start.legacy name) := by
    rw [Scan.state, reads.states name member]
    cases start.legacy name <;> rfl
  rw [Scan.plan, state, Scan.bad, reads.bad, Config.planOf]

theorem Scan.Reads.fileLeft {scan : Scan} (reads : scan.Reads unhealthy all start)
    (member : name ∈ scan.all) {restarts : Bool} :
    scan.fileLeft cfg now restarts name (start.legacy name) =
      cfg.fileAfter now (start.legacy name) (decide (name ∈ unhealthy)) restarts := by
  have known : scan.known name = (start.legacy name).isSome := by
    rw [Scan.known, reads.states name member, Option.isSome_map]
  rw [Scan.fileLeft, Config.fileAfter, reads.plan member, known, Scan.bad, reads.bad]
  simp only [Bool.or_eq_true]
  split
  · rfl
  · next absent =>
      rw [not_or, Option.not_isSome_iff_eq_none] at absent
      exact absent.1

/-- The state file of a container after a scan, and the results of its restarts. -/
structure Ends (docker : Docker) (cfg : Config) (now : Int) (unhealthy all : List Name)
    (start : World) (name : Name) (results : List Bool) (file : Option Bytes) : Prop where
  file : file =
    if name ∈ all then
      cfg.fileAfter now (start.legacy name) (decide (name ∈ unhealthy)) (docker.restarts name)
    else if namePattern name then none
    else start.legacy name
  results : results =
    if name ∈ all ∧ (cfg.planOf now (start.legacy name) (decide (name ∈ unhealthy))).action =
      .restart then [docker.restarts name] else []

/-- The configuration and the ledger are ones that a scan starts from. -/
structure Starts (cfg : Config) (now : Int) (start : World) : Prop where
  config : checkConfig cfg now = .ok ()
  ledger : ∃ r, acceptLedger start.ledger.read = .ok r

theorem execute_ends (starts : Starts cfg now start) (lists : docker.Lists unhealthy all rows)
    (readable : Readable start) :
    Finishes docker
      (fun past world _ => Ends docker cfg now unhealthy all start name
        (commandResults name past) (world.legacy name))
      (execute cfg now) [] start := by
  rcases starts.ledger with ⟨ledger, accepted⟩
  have pristine : Pristine start [] start := ⟨rfl, fun _ => rfl⟩
  rw [execute, starts.config]
  refine Attempt.call_bind.mpr ?_
  intro answer after₁ ⟨step₁, works₁⟩
  have found : answer = start.ledger.read := works₁
  subst found
  have pristine₁ : Pristine start (⟨start, .readLedger, start.ledger.read, after₁⟩ :: [])
      after₁ := pristine.next (fun _ => rfl) step₁.1
  refine ⟨trivial, ?_⟩
  simp only [accepted, Attempt.ofExcept, pure_bind]
  refine Attempt.bind_iff.mpr ?_
  intro opened after₂ ⟨step₂, works₂⟩
  have usable : opened = Except.ok () := works₂
  subst usable
  have pristine₂ : Pristine start (⟨after₁, .openLog, .ok (), after₂⟩ ::
      ⟨start, .readLedger, start.ledger.read, after₁⟩ :: []) after₂ :=
    pristine₁.next (fun _ => rfl) step₂
  refine ⟨trivial, ?_⟩
  apply Attempt.bind (orFail_finishes (readScan_pristine lists readable pristine₂))
  intro past₃ world₃ scan ⟨pristine₃, reads⟩
  have nodup : scan.all.Nodup := reads.listed ▸ inventory_nodup lists.full
  have acted {r} := @actOn_tracked docker cfg now start name past₃ world₃ r scan nodup pristine₃
  refine finishes_mono acted ?_
  intro past₄ world₄ _ tracked
  constructor
  · rw [tracked.file, Scan.fileAfter, ← reads.listed]
    split
    · next member => exact reads.fileLeft member
    · rfl
  · rw [tracked.results, ← reads.listed]
    by_cases member : name ∈ scan.all
    · rw [reads.plan member]
    · simp [member]

/-! ## Such scans exist -/

def Listable (world : World) : Prop :=
  ∃ files : List Name, ∀ name, name ∈ files ↔ (world.legacy name).isSome = true

theorem Listable.update (listable : Listable world) (content : Option Bytes) :
    Listable { world with legacy := Function.update world.legacy name content } := by
  have ⟨files, each⟩ := listable
  refine ⟨if content.isSome then name :: files else files.filter (· ≠ name), fun other => ?_⟩
  by_cases same : other = name
  · subst same
    cases content <;> simp
  · cases content <;> simp [same, each]

/-- Every operation can be answered as `docker` says. -/
theorem works_replies (world : World) (operation : Operation) (listable : Listable world) :
    ∃ answer after, (system.restrict (Works docker)).Step world operation answer after ∧
      Listable after := by
  cases operation with
  | readLedger => exact ⟨_, world, ⟨⟨rfl, .inl rfl⟩, rfl⟩, listable⟩
  | psUnhealthy => exact ⟨.ok docker.unhealthy, world, ⟨rfl, rfl⟩, listable⟩
  | psAll => exact ⟨.ok docker.full, world, ⟨rfl, rfl⟩, listable⟩
  | openLog => exact ⟨.ok (), world, ⟨rfl, rfl⟩, listable⟩
  | writeTextfile r budget => exact ⟨.ok (), world, ⟨rfl, rfl⟩, listable⟩
  | notifyHelper title priority tags body => exact ⟨.ok (), world, ⟨rfl, trivial⟩, listable⟩
  | writeLedger r => exact ⟨.ok (), _, ⟨rfl, rfl⟩, listable⟩
  | writeState name content => exact ⟨.ok (), _, ⟨rfl, rfl⟩, listable.update (some content)⟩
  | removeState name => exact ⟨.ok (), _, ⟨rfl, rfl⟩, listable.update none⟩
  | globStates =>
      have ⟨files, each⟩ := listable
      exact ⟨.ok files, world, ⟨⟨rfl, fun name => (each name).mp⟩, files, rfl, each⟩, listable⟩
  | restart name =>
      cases restarts : docker.restarts name with
      | true => exact ⟨.ok (), world, ⟨rfl, restarts.symm⟩, listable⟩
      | false => exact ⟨.error "exit status 1", world, ⟨rfl, restarts.symm⟩, listable⟩
  | readState name =>
      cases stored : world.legacy name with
      | none =>
          refine ⟨.notExist, world, ⟨⟨rfl, .inr ?_⟩, fun message same => nomatch same⟩, listable⟩
          rw [stored]
      | some content =>
          refine ⟨.data content, world, ⟨⟨rfl, .inr ?_⟩, fun message same => nomatch same⟩,
            listable⟩
          rw [stored]

end Scanning

end Homelab.Watchdog
