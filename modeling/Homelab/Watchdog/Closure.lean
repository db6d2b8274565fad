import Homelab.Watchdog.LedgerText
import Homelab.Watchdog.Validation
import Homelab.Watchdog.Working

/-! # What a scan writes the next one reads

The readers bound what they accept: a ledger to 1 MiB, and each number of a state file to 2⁵³. The
writers have no bounds of their own. As long as a scan starts with room below both bounds, every
file it writes is accepted again.
-/

namespace Homelab.Watchdog

open Effects ByteText

/-! ## Room -/

/-- Everything that a scan may put into the ledger under a name. -/
def Scan.stages (cfg : Config) (now : Int) (scan : Scan) (r : Result) (name : Name) :
    List Container :=
  let p := scan.plan cfg now name
  observe cfg now scan r name ::
    if p.action = .restart then
      [⟨p.state, true, true⟩, ⟨p.state.restarted now, true, false⟩,
        ⟨p.left cfg now false, true, true⟩]
    else []

def Scan.widest (cfg : Config) (now : Int) (scan : Scan) (r : Result) (name : Name) : Nat :=
  ((scan.stages cfg now r name).map fun c => c.json.length).foldr max 0

/-- How often a scan may move a counter: once for each unhealthy container. -/
def Scan.moves (scan : Scan) : Nat := (scan.all.filter scan.bad).length

/-- The length of a counter that has been moved so often. -/
def counterWidth (counter : UInt64) (moves : Nat) : Nat :=
  (GoJson.decimal (counter.toNat + moves : Nat)).length

/-- The length of a ledger that lists every container at its longest. -/
def Scan.ledgerWidth (cfg : Config) (now : Int) (scan : Scan) (r : Result) : Nat :=
  GoJson.objectWidth [("last_run", (GoJson.decimal now).length), ("success", 5),
    ("docker_read_ok", 4), ("restart_attempts_total", counterWidth r.attempts scan.moves),
    ("restarts_total", counterWidth r.restarts scan.moves),
    ("restart_failures_total", counterWidth r.failures scan.moves),
    ("notification_attempts_total", counterWidth r.notifications scan.moves),
    ("notification_failures_total", counterWidth r.notificationFailures scan.moves),
    ("containers", GoJson.objectWidth (scan.all.map fun name =>
      (.ofList (lineOf name), scan.widest cfg now r name)))] + 1

/-- No number that the scan may store passes the bound of the reader, and neither does the
ledger. -/
structure Room (cfg : Config) (now : Int) (r : Result) (scan : Scan) : Prop where
  counts : ∀ name ∈ scan.all, scan.bad name = true → (scan.state name).consecutive < 2 ^ 53
  restarts : ∀ name ∈ scan.all, (scan.plan cfg now name).action = .restart →
    (scan.plan cfg now name).state.restarts < 2 ^ 53
  clock : ∀ name ∈ scan.all, (scan.plan cfg now name).action = .restart ∨
    (scan.plan cfg now name).notify = true → now ≤ 2 ^ 53
  width : scan.ledgerWidth cfg now r ≤ 2 ^ 20

/-- The ledger that a scan publishes if it cannot read its inventories. -/
def Result.carried (r : Result) (now : Int) : Result :=
  { r with lastRun := now, success := false, dockerReadOk := false }

/-- A scan that starts with room: its clock is one that Go holds, the ledger it found can be
published again, and so can whatever comes of the containers it read. -/
structure Fits (run : ScanRun) : Prop where
  clock : GoText.InInt64 run.parameter.2
  carried : ∀ r, acceptLedger run.before.ledger.read = .ok r →
    (r.carried run.parameter.2).text.length ≤ 2 ^ 20
  room : ∀ r scan, acceptLedger run.before.ledger.read = .ok r → Validated scan run.moments →
    Room run.parameter.1 run.parameter.2 (r.carried run.parameter.2) scan

def Operation.Kept : Operation → Prop
  | .writeLedger r => r.TakenBack
  | .writeState _ content => ∃ s : State, content = s.bytes ∧ parseState content = .ok s
  | _ => True

structure World.Accepted (world : World) : Prop where
  ledger : world.ledger = .absent ∨ ∃ r, world.ledger = .document r ∧ r.TakenBack
  states : ∀ name content, world.legacy name = some content →
    ∃ s, parseState content = .ok s

/-! ## States -/

theorem State.Storable.typed {s : State} (storable : s.Storable) : s.Typed := by
  rcases storable with ⟨⟨_, _, _, _⟩, _, _, _, _⟩
  refine ⟨⟨?_, ?_⟩, ⟨?_, ?_⟩, ⟨?_, ?_⟩, ⟨?_, ?_⟩⟩ <;> omega

section Stages

variable {cfg : Config} {now : Int} {scan : Scan} {r start : Result} {name : Name}
  {c : Container} {moves : Nat}

theorem State.Storable.decay {s : State} (storable : s.Storable) (unhealthy : Bool) (now : Int) :
    (s.decay unhealthy now).Storable := by
  refine ⟨State.decay_natural storable.natural unhealthy now, ?_, ?_, ?_, ?_⟩
  · rw [State.decay_consecutive]
    split
    · exact storable.consecutive
    · decide
  · rw [State.decay_restarts]
    split
    · decide
    · exact storable.restarts
  · rw [State.decay_lastRestart]
    exact storable.lastRestart
  · rw [State.decay_lastAlert]
    split
    · exact storable.lastAlert
    · decide

theorem State.Storable.decide {s : State} {unhealthy : Bool} {threshold budget cooldown : Int}
    (storable : s.Storable) (started : 0 ≤ now)
    (counts : unhealthy = true → s.consecutive < 2 ^ 53)
    (clock : (s.decide unhealthy now threshold budget cooldown).notify = true → now ≤ 2 ^ 53) :
    (s.decide unhealthy now threshold budget cooldown).state.Storable := by
  have decayed := storable.decay unhealthy now
  refine ⟨State.decide_natural storable.natural unhealthy started _ _ _, ?_, ?_, ?_, ?_⟩
  · rw [State.decide_consecutive]
    split
    · next bad =>
        have := counts bad
        omega
    · decide
  · rw [State.decide_restarts, ← State.decay_restarts s unhealthy now]
    exact decayed.restarts
  · rw [State.decide_lastRestart]
    exact storable.lastRestart
  · by_cases page : (s.decide unhealthy now threshold budget cooldown).notify = true
    · rw [State.decide_stamp page]
      exact clock page
    · rw [State.decide_lastAlert fun both => page both.2]
      split
      · exact storable.lastAlert
      · decide

theorem State.Storable.restarted {s : State} (storable : s.Storable) (started : 0 ≤ now)
    (room : s.restarts < 2 ^ 53) (clock : now ≤ 2 ^ 53) : (s.restarted now).Storable :=
  ⟨storable.natural.restarted started, show (0 : Int) ≤ 2 ^ 53 by decide,
    Int.add_one_le_of_lt room, clock, storable.lastAlert⟩

theorem State.Storable.stamped {s : State} (storable : s.Storable) (started : 0 ≤ now)
    (clock : now ≤ 2 ^ 53) : ({ s with lastAlert := now } : State).Storable :=
  ⟨⟨storable.natural.consecutive, storable.natural.restarts, storable.natural.lastRestart,
    started⟩, storable.consecutive, storable.restarts, storable.lastRestart, clock⟩

/-- What a scan has read: valid names, and state files within the bound. -/
structure Scan.Sane (scan : Scan) : Prop where
  nodup : scan.all.Nodup
  valid : ∀ name ∈ scan.all, namePattern name = true
  storable : ∀ name ∈ scan.all, (scan.state name).Storable

theorem Validated.sane {past : Past interface World} (validated : Validated scan past) :
    scan.Sane := by
  rcases validated.present with ⟨data, _, listed⟩
  refine ⟨inventory_nodup listed, inventory_valid listed, fun name member => ?_⟩
  have inspected := validated.states name member
  rw [Scan.state]
  unfold Inspected at inspected
  split at inspected
  · next absent =>
      rw [absent]
      exact State.zero_storable
  · next s found =>
      rw [found]
      rcases inspected with ⟨content, _, parsed⟩
      exact parseState_storable parsed

/-- Whatever the scan stores for a container can be read back. -/
theorem stage_storable (room : Room cfg now r scan) (sane : scan.Sane) (started : 0 ≤ now)
    (member : name ∈ scan.all) (stage : c ∈ scan.stages cfg now r name) : c.state.Storable := by
  have planned : (scan.plan cfg now name).state.Storable :=
    (sane.storable name member).decide started (room.counts name member)
      fun page => room.clock name member (.inr page)
  rcases List.mem_cons.mp stage with same | stage
  · rw [same]
    exact planned
  · split at stage
    · next restart =>
        have clock := room.clock name member (.inl restart)
        simp only [List.mem_cons, List.not_mem_nil, or_false] at stage
        rcases stage with same | same | same
        · rw [same]
          exact planned
        · rw [same]
          exact planned.restarted started (room.restarts name member restart) clock
        · rw [same]
          simp only [Plan.left, restart, Bool.false_eq_true, if_false]
          split
          · exact planned.stamped started clock
          · exact planned
    · cases stage

/-! ## Ledgers -/

/-- A ledger of this scan: every counter was moved so often at most, and every container is one
that the scan may store. -/
structure Ledgered (cfg : Config) (now : Int) (scan : Scan) (start : Result) (moves : Nat)
    (r : Result) : Prop where
  clock : r.lastRun = now
  readOk : r.dockerReadOk = true
  attempts : r.attempts.toNat ≤ start.attempts.toNat + moves
  restarts : r.restarts.toNat ≤ start.restarts.toNat + moves
  failures : r.failures.toNat ≤ start.failures.toNat + moves
  notifications : r.notifications.toNat ≤ start.notifications.toNat + moves
  notificationFailures : r.notificationFailures.toNat ≤ start.notificationFailures.toNat + moves
  listed : ∀ name c, r.containers.lookup name = some c →
    name ∈ scan.all ∧ c ∈ scan.stages cfg now start name

theorem Ledgered.container (ledgered : Ledgered cfg now scan start moves r)
    (member : name ∈ r.containers) :
    name ∈ scan.all ∧ r.container name ∈ scan.stages cfg now start name := by
  have ⟨c, found⟩ := Option.isSome_iff_exists.mp (AList.lookup_isSome.mpr member)
  have holds := ledgered.listed name c found
  rw [Result.container, found]
  exact holds

theorem length_stage (stage : c ∈ scan.stages cfg now r name) :
    c.json.length ≤ scan.widest cfg now r name := by
  rw [Scan.widest]
  generalize scan.stages cfg now r name = stages at stage ⊢
  induction stages with
  | nil => cases stage
  | cons head rest induction =>
      rw [List.map_cons, List.foldr_cons]
      rcases List.mem_cons.mp stage with same | later
      · rw [same]
        exact Nat.le_max_left _ _
      · exact Nat.le_trans (induction later) (Nat.le_max_right _ _)

/-- Fewer names take less. -/
theorem sum_subset {weight : Name → Nat} {names all : List Name} (nodup : names.Nodup)
    (subset : names ⊆ all) : (names.map weight).sum ≤ (all.map weight).sum := by
  rcases (nodup.subperm subset) with ⟨some, same, part⟩
  rw [← (same.map weight).sum_eq]
  exact (part.map weight).sum_le_sum fun _ _ => Nat.zero_le _

theorem length_entries (ledgered : Ledgered cfg now scan start moves r) :
    (GoJson.object r.entries).length ≤ GoJson.objectWidth (scan.all.map fun name =>
      (.ofList (lineOf name), scan.widest cfg now start name)) := by
  rw [GoJson.length_object]
  apply GoJson.objectWidth_mono
  simp only [Result.entries, List.map_map, Function.comp_def]
  have nodup : (sortNames r.containers.keys).Nodup :=
    (List.perm_insertionSort _ _).nodup_iff.mpr r.containers.keys_nodup
  have subset : sortNames r.containers.keys ⊆ scan.all := fun name member =>
    (ledgered.container (Result.mem_sorted.mp member)).1
  refine Nat.le_trans ?_ (sum_subset nodup subset)
  refine List.sum_le_sum fun name member => ?_
  have stage := (ledgered.container (Result.mem_sorted.mp member)).2
  exact Nat.add_le_add_left (length_stage stage) _

theorem length_flag (value : Bool) : (flagText value).length ≤ 5 := by
  cases value <;> decide

theorem length_counter {counter other : UInt64} (few : counter.toNat ≤ other.toNat + moves) :
    (counterText counter).length ≤ counterWidth other moves :=
  GoJson.length_decimal_mono few

/-- No ledger of the scan is longer than the one that lists everything at its longest. -/
theorem length_text (ledgered : Ledgered cfg now scan start scan.moves r) :
    r.text.length ≤ scan.ledgerWidth cfg now start := by
  rw [Result.text, List.length_append, Result.json, GoJson.length_object, Scan.ledgerWidth]
  refine Nat.add_le_add_right (GoJson.objectWidth_mono ?_) 1
  have docker : (flagText r.dockerReadOk).length = 4 := by
    rw [ledgered.readOk]
    decide
  have success := length_flag r.success
  have attempts := length_counter ledgered.attempts
  have restarts := length_counter ledgered.restarts
  have failures := length_counter ledgered.failures
  have notifications := length_counter ledgered.notifications
  have notificationFailures := length_counter ledgered.notificationFailures
  have entries := length_entries ledgered
  simp only [List.map_cons, List.map_nil, List.sum_cons, List.sum_nil, docker, ledgered.clock]
  omega

theorem Ledgered.takenBack (ledgered : Ledgered cfg now scan start scan.moves r)
    (room : Room cfg now start scan) (sane : scan.Sane) (started : 1 ≤ now)
    (clock : GoText.InInt64 now) : r.TakenBack := by
  refine takenBack_iff.mpr ⟨ledgered.clock ▸ started, ⟨ledgered.clock ▸ clock, ?_, ?_⟩, ?_⟩
  · exact fun name member => sane.valid name (ledgered.container member).1
  · intro name member
    have ⟨listed, stage⟩ := ledgered.container member
    exact (stage_storable room sane (by omega) listed stage).typed
  · exact Nat.le_trans (length_text ledgered) room.width

end Stages

/-! ## Writing -/

section Writing

variable {cfg : Config} {now : Int} {scan : Scan} {r start later : Result} {name : Name}
  {c : Container} {s : State} {moves : Nat} {α : Type}

/-- The action writes only what is read back, and returns what `ends` says. -/
abbrev Writes (ends : α → Prop) (action : Go α) : Prop :=
  Attempt.Leads Operation.Kept ends action

theorem publish_writes (taken : r.TakenBack) : Writes (fun _ => True) (publish cfg r) := by
  apply Attempt.Within.leads
  exact Attempt.Within.bind ⟨taken, fun _ => trivial⟩ fun _ => ⟨trivial, fun _ => trivial⟩

theorem orFail_writes {action : Go α} {ends : α → Prop} (taken : r.TakenBack)
    (writes : Writes ends action) : Writes ends (orFail cfg r action) := by
  apply writes.outcome.bind
  intro outcome holds
  cases outcome with
  | ok result => exact Attempt.leads_pure (holds result rfl)
  | error message =>
      apply (publish_writes taken).bind
      intro _ _ other same
      cases same

theorem saveLegacy_writes (taken : r.TakenBack) (storable : s.Storable) :
    Writes (fun _ => True) (orFail cfg r (saveLegacy name s)) := by
  apply orFail_writes taken
  exact ⟨⟨s, rfl, State.storable_iff.mpr storable⟩, fun _ _ _ => trivial⟩

def Result.notified (r : Result) (failed : Bool) : Result :=
  { r with
    notifications := r.notifications + 1,
    notificationFailures := if failed then r.notificationFailures + 1
      else r.notificationFailures }

theorem notify_writes {title priority tags body : Bytes}
    (taken : ∀ failed, (r.notified failed).TakenBack) :
    Writes (fun last => ∃ failed, last = r.notified failed)
      (notify cfg r title priority tags body) := by
  apply (publish_writes (taken false)).bind
  intro _ _
  have command : Writes (fun _ => True) (notifyCommand title priority tags body) :=
    ⟨trivial, fun _ _ _ => trivial⟩
  apply command.bind
  intro answer _
  cases answer with
  | ok _ =>
      apply (publish_writes (taken false)).bind
      exact fun _ _ => Attempt.leads_pure ⟨false, rfl⟩
  | error message =>
      apply (publish_writes (taken true)).bind
      exact fun _ _ => Attempt.leads_pure ⟨true, rfl⟩

/-! ## One container -/

/-- What tending one container may change of a ledger. -/
structure Nudged (cfg : Config) (now : Int) (scan : Scan) (start : Result) (name : Name)
    (r later : Result) : Prop where
  clock : later.lastRun = r.lastRun
  readOk : later.dockerReadOk = r.dockerReadOk
  attempts : later.attempts.toNat ≤ r.attempts.toNat + 1
  restarts : later.restarts.toNat ≤ r.restarts.toNat + 1
  failures : later.failures.toNat ≤ r.failures.toNat + 1
  notifications : later.notifications.toNat ≤ r.notifications.toNat + 1
  notificationFailures :
    later.notificationFailures.toNat ≤ r.notificationFailures.toNat + 1
  others : ∀ other, other ≠ name →
    later.containers.lookup other = r.containers.lookup other
  own : ∀ c, later.containers.lookup name = some c →
    c ∈ scan.stages cfg now start name ∨ r.containers.lookup name = some c

theorem Ledgered.nudged (ledgered : Ledgered cfg now scan start moves r)
    (member : name ∈ scan.all) (nudged : Nudged cfg now scan start name r later) :
    Ledgered cfg now scan start (moves + 1) later where
  clock := nudged.clock.trans ledgered.clock
  readOk := nudged.readOk.trans ledgered.readOk
  attempts := Nat.le_trans nudged.attempts (Nat.add_le_add_right ledgered.attempts 1)
  restarts := Nat.le_trans nudged.restarts (Nat.add_le_add_right ledgered.restarts 1)
  failures := Nat.le_trans nudged.failures (Nat.add_le_add_right ledgered.failures 1)
  notifications :=
    Nat.le_trans nudged.notifications (Nat.add_le_add_right ledgered.notifications 1)
  notificationFailures :=
    Nat.le_trans nudged.notificationFailures (Nat.add_le_add_right ledgered.notificationFailures 1)
  listed := by
    intro other c found
    by_cases same : other = name
    · subst same
      rcases nudged.own c found with stage | found
      · exact ⟨member, stage⟩
      · exact ledgered.listed other c found
    · rw [nudged.others other same] at found
      exact ledgered.listed other c found

theorem Ledgered.mono {more : Nat} (ledgered : Ledgered cfg now scan start moves r)
    (le : moves ≤ more) : Ledgered cfg now scan start more r where
  clock := ledgered.clock
  readOk := ledgered.readOk
  attempts := Nat.le_trans ledgered.attempts (Nat.add_le_add_left le _)
  restarts := Nat.le_trans ledgered.restarts (Nat.add_le_add_left le _)
  failures := Nat.le_trans ledgered.failures (Nat.add_le_add_left le _)
  notifications := Nat.le_trans ledgered.notifications (Nat.add_le_add_left le _)
  notificationFailures := Nat.le_trans ledgered.notificationFailures (Nat.add_le_add_left le _)
  listed := ledgered.listed

theorem toNat_succ_le (counter : UInt64) : (counter + 1).toNat ≤ counter.toNat + 1 := by
  rw [UInt64.toNat_add, UInt64.toNat_one]
  exact Nat.mod_le _ _

theorem Nudged.refl (r : Result) : Nudged cfg now scan start name r r :=
  ⟨rfl, rfl, Nat.le_succ _, Nat.le_succ _, Nat.le_succ _, Nat.le_succ _, Nat.le_succ _,
    fun _ _ => rfl, fun _ found => .inr found⟩

/-- The container is listed in another of its stages. -/
theorem Nudged.set (nudged : Nudged cfg now scan start name r later)
    (stage : c ∈ scan.stages cfg now start name) :
    Nudged cfg now scan start name r (later.setContainer name c) where
  clock := nudged.clock
  readOk := nudged.readOk
  attempts := nudged.attempts
  restarts := nudged.restarts
  failures := nudged.failures
  notifications := nudged.notifications
  notificationFailures := nudged.notificationFailures
  others := by
    intro other different
    rw [Result.setContainer, AList.lookup_insert_ne different]
    exact nudged.others other different
  own := by
    intro found lookup
    rw [Result.setContainer, AList.lookup_insert] at lookup
    cases lookup
    exact .inl stage

/-- A notification counts once. -/
theorem Nudged.notified (nudged : Nudged cfg now scan start name r later)
    (fresh : later.notifications = r.notifications)
    (freshFailures : later.notificationFailures = r.notificationFailures) (failed : Bool) :
    Nudged cfg now scan start name r (later.notified failed) where
  clock := nudged.clock
  readOk := nudged.readOk
  attempts := nudged.attempts
  restarts := nudged.restarts
  failures := nudged.failures
  notifications := by
    rw [Result.notified, fresh]
    exact toNat_succ_le _
  notificationFailures := by
    rw [Result.notified, freshFailures]
    cases failed with
    | true => exact toNat_succ_le _
    | false => exact Nat.le_succ _
  others := nudged.others
  own := nudged.own

theorem Nudged.attempted :
    Nudged cfg now scan start name r { r with attempts := r.attempts + 1 } :=
  ⟨rfl, rfl, toNat_succ_le _, Nat.le_succ _, Nat.le_succ _, Nat.le_succ _, Nat.le_succ _,
    fun _ _ => rfl, fun _ found => .inr found⟩

theorem Nudged.succeeded (nudged : Nudged cfg now scan start name r later)
    (fresh : later.restarts = r.restarts) :
    Nudged cfg now scan start name r { later with restarts := later.restarts + 1 } :=
  ⟨nudged.clock, nudged.readOk, nudged.attempts, fresh ▸ toNat_succ_le _, nudged.failures,
    nudged.notifications, nudged.notificationFailures, nudged.others, nudged.own⟩

theorem Nudged.failed (nudged : Nudged cfg now scan start name r later)
    (fresh : later.failures = r.failures) :
    Nudged cfg now scan start name r { later with failures := later.failures + 1 } :=
  ⟨nudged.clock, nudged.readOk, nudged.attempts, nudged.restarts, fresh ▸ toNat_succ_le _,
    nudged.notifications, nudged.notificationFailures, nudged.others, nudged.own⟩

/-- All that tending may leave in the ledger can be read back, and so can all that it may leave
in the state file. -/
structure Safe (cfg : Config) (now : Int) (scan : Scan) (start : Result) (name : Name)
    (r : Result) : Prop where
  ledgers : ∀ later, Nudged cfg now scan start name r later → later.TakenBack
  states : ∀ c ∈ scan.stages cfg now start name, c.state.Storable

theorem tendRestart_writes (safe : Safe cfg now scan start name r)
    (restart : (scan.plan cfg now name).action = .restart) :
    Writes (Nudged cfg now scan start name r)
      (tendRestart cfg now s r name (observe cfg now scan start name)) := by
  have bad : scan.bad name = true := plan_restart_bad restart
  let p := scan.plan cfg now name
  let intended : Container := ⟨p.state, scan.bad name, true⟩
  have stage (c : Container) (listed : c ∈ [⟨p.state, true, true⟩,
      ⟨p.state.restarted now, true, false⟩, ⟨p.left cfg now false, true, true⟩]) :
      c ∈ scan.stages cfg now start name := by
    rw [Scan.stages]
    refine List.mem_cons_of_mem _ ?_
    rw [if_pos restart]
    exact listed
  have intention : intended ∈ scan.stages cfg now start name :=
    stage _ (by simp [intended, bad])
  have intending : Nudged cfg now scan start name r
      ({ r with attempts := r.attempts + 1 }.setContainer name intended) :=
    Nudged.attempted.set intention
  apply (publish_writes (safe.ledgers _ intending)).bind
  intro _ _
  have command : Writes (fun _ => True) (restartCommand name) := ⟨trivial, fun _ _ _ => trivial⟩
  apply command.bind
  intro answer _
  cases answer with
  | ok _ =>
      let restarted : Container := ⟨p.state.restarted now, scan.bad name, false⟩
      have stored : restarted ∈ scan.stages cfg now start name :=
        stage _ (by simp [restarted, bad])
      have done := (intending.succeeded rfl).set stored
      apply (saveLegacy_writes (safe.ledgers _ done) (safe.states _ stored)).bind
      intro _ _
      apply (publish_writes (safe.ledgers _ done)).bind
      intro _ _
      apply (notify_writes fun failed => safe.ledgers _ (done.notified rfl rfl failed)).mono
        fun _ holds => holds
      rintro last ⟨failed, same⟩
      rw [same]
      exact done.notified rfl rfl failed
  | error message =>
      have done := (intending.failed rfl).set intention
      apply (saveLegacy_writes (safe.ledgers _ done) (safe.states _ intention)).bind
      intro _ _
      apply (publish_writes (safe.ledgers _ done)).bind
      intro _ _
      split
      · next due =>
          let alerted : Container := ⟨{ p.state with lastAlert := now }, scan.bad name, true⟩
          have stored : alerted ∈ scan.stages cfg now start name := by
            have left : p.left cfg now false = { p.state with lastAlert := now } := by
              have patient : cfg.cooldown ≤ now - p.state.lastAlert := due
              simp [Plan.left, p, restart, patient]
            exact stage _ (by simp [alerted, bad, left])
          have last := done.set stored
          apply (saveLegacy_writes (safe.ledgers _ last) (safe.states _ stored)).bind
          intro _ _
          apply (notify_writes fun failed => safe.ledgers _ (last.notified rfl rfl failed)).mono
            fun _ holds => holds
          rintro final ⟨failed, same⟩
          rw [same]
          exact last.notified rfl rfl failed
      · exact Attempt.leads_pure done

theorem act_writes (safe : Safe cfg now scan start name r) :
    Writes (Nudged cfg now scan start name r)
      (act cfg now (scan.plan cfg now name) r name (observe cfg now scan start name)) := by
  unfold act
  split
  · next restart => exact tendRestart_writes safe restart
  · split
    · have taken (failed : Bool) : Nudged cfg now scan start name r (r.notified failed) :=
        (Nudged.refl r).notified rfl rfl failed
      apply (notify_writes fun failed => safe.ledgers _ (taken failed)).mono fun _ holds => holds
      intro last ⟨failed, same⟩
      rw [same]
      exact taken failed
    · exact Attempt.leads_pure (Nudged.refl r)
  · exact Attempt.leads_pure (Nudged.refl r)

theorem tend_writes (safe : Safe cfg now scan start name r)
    (listed : r.container name = observe cfg now scan start name) :
    Writes (Nudged cfg now scan start name r) (tend cfg now scan r name) := by
  have first : observe cfg now scan start name ∈ scan.stages cfg now start name :=
    List.mem_cons_self
  unfold tend
  rw [listed]
  split
  · apply (saveLegacy_writes (safe.ledgers _ (Nudged.refl r)) (safe.states _ first)).bind
    intro _ _
    exact act_writes safe
  · exact act_writes safe

/-- A container that is not unhealthy moves nothing in the ledger. -/
theorem tend_spares (taken : r.TakenBack) (healthy : scan.bad name = false)
    (storable : (observe cfg now scan start name).state.Storable)
    (listed : r.container name = observe cfg now scan start name) :
    Writes (fun later => later = r) (tend cfg now scan r name) := by
  have idle : (scan.plan cfg now name).action = .none := by
    simp [Scan.plan, healthy, State.decide]
  have acted (c : Container) :
      Writes (fun later => later = r) (act cfg now (scan.plan cfg now name) r name c) := by
    rw [act, idle]
    exact Attempt.leads_pure rfl
  unfold tend
  rw [listed]
  split
  · apply (saveLegacy_writes taken storable).bind
    intro _ _
    exact acted _
  · exact acted _

/-! ## All containers -/

/-- The ledgers of the scan can be read back, and so can the state files. -/
structure Sound (cfg : Config) (now : Int) (scan : Scan) (start : Result) : Prop where
  ledgers : ∀ r, Ledgered cfg now scan start scan.moves r → r.TakenBack
  states : ∀ name ∈ scan.all, ∀ c ∈ scan.stages cfg now start name, c.state.Storable

theorem Sound.safe (sound : Sound cfg now scan start) (member : name ∈ scan.all)
    (ledgered : Ledgered cfg now scan start moves r) (few : moves + 1 ≤ scan.moves) :
    Safe cfg now scan start name r :=
  ⟨fun later nudged => sound.ledgers later ((ledgered.nudged member nudged).mono few),
    sound.states name member⟩

theorem tendAll_writes {names : List Name} (sound : Sound cfg now scan start)
    (nodup : names.Nodup) (subset : ∀ name ∈ names, name ∈ scan.all)
    (ledgered : Ledgered cfg now scan start moves r)
    (listed : ∀ name ∈ names, r.container name = observe cfg now scan start name)
    (few : moves + (names.filter scan.bad).length ≤ scan.moves) :
    Writes (Ledgered cfg now scan start scan.moves) (tendAll cfg now scan r names) := by
  induction names generalizing r moves with
  | nil => exact Attempt.leads_pure (ledgered.mono few)
  | cons head rest induction =>
      rw [List.nodup_cons] at nodup
      have member : head ∈ scan.all := subset head List.mem_cons_self
      have here : r.container head = observe cfg now scan start head :=
        listed head List.mem_cons_self
      have later (name : Name) (isLater : name ∈ rest) : name ∈ head :: rest :=
        List.mem_cons_of_mem _ isLater
      by_cases bad : scan.bad head = true
      · rw [List.filter_cons_of_pos bad, List.length_cons] at few
        apply (tend_writes (sound.safe member ledgered (by omega)) here).bind
        intro next nudged
        refine induction nodup.2 (fun name isLater => subset name (later name isLater))
          (ledgered.nudged member nudged) (fun name isLater => ?_) (by omega)
        have other : name ≠ head := fun same => nodup.1 (same ▸ isLater)
        rw [Result.container, nudged.others name other]
        exact listed name (later name isLater)
      · rw [List.filter_cons_of_neg bad] at few
        have healthy : scan.bad head = false := Bool.eq_false_iff.mpr bad
        have taken : r.TakenBack := sound.ledgers r (ledgered.mono (by omega))
        have storable := sound.states head member _ List.mem_cons_self
        apply (tend_spares taken healthy storable here).bind
        intro next same
        rw [same]
        exact induction nodup.2 (fun name isLater => subset name (later name isLater)) ledgered
          (fun name isLater => listed name (later name isLater)) few

theorem collect_writes {files : List Name} (taken : r.TakenBack) :
    Writes (fun _ => True) (collect cfg scan r files) := by
  induction files with
  | nil => exact Attempt.leads_pure trivial
  | cons head rest induction =>
      unfold collect
      split
      · have removed : Writes (fun _ => True) (orFail cfg r (removeState head)) :=
          orFail_writes taken ⟨trivial, fun _ _ _ => trivial⟩
        exact removed.bind fun _ _ => induction
      · exact induction

/-- The ledger with which the loop starts. -/
theorem ledgered_observed (clock : start.lastRun = now) :
    Ledgered cfg now scan start 0
      { start with dockerReadOk := true, containers := observed cfg now scan start } where
  clock := clock
  readOk := rfl
  attempts := Nat.le_refl _
  restarts := Nat.le_refl _
  failures := Nat.le_refl _
  notifications := Nat.le_refl _
  notificationFailures := Nat.le_refl _
  listed := by
    intro name c found
    rw [observed_lookup] at found
    split at found
    · next member =>
        cases found
        exact ⟨member, List.mem_cons_self⟩
    · cases found

theorem Ledgered.successful (ledgered : Ledgered cfg now scan start moves r) :
    Ledgered cfg now scan start moves { r with success := true } :=
  ⟨ledgered.clock, ledgered.readOk, ledgered.attempts, ledgered.restarts, ledgered.failures,
    ledgered.notifications, ledgered.notificationFailures, ledgered.listed⟩

theorem actOn_writes (sound : Sound cfg now scan start) (nodup : scan.all.Nodup)
    (clock : start.lastRun = now) : Writes (fun _ => True) (actOn cfg now scan start) := by
  have first : Ledgered cfg now scan start 0
      { start with dockerReadOk := true, containers := observed cfg now scan start } :=
    ledgered_observed clock
  apply (publish_writes (sound.ledgers _ (first.mono (Nat.zero_le _)))).bind
  intro _ _
  have listed (name : Name) (member : name ∈ scan.all) :
      Result.container
        { start with dockerReadOk := true, containers := observed cfg now scan start } name =
        observe cfg now scan start name := by
    rw [Result.container, observed_lookup, if_pos member]
    rfl
  apply (tendAll_writes sound nodup (fun _ member => member) first listed
    (Nat.le_of_eq (Nat.zero_add _))).bind
  intro r ledgered
  have taken := sound.ledgers r ledgered
  have files : Writes (fun _ => True) (orFail cfg r globStates) :=
    orFail_writes taken ⟨trivial, fun _ _ _ => trivial⟩
  apply files.bind
  intro files _
  apply (collect_writes taken).bind
  intro _ _
  exact publish_writes (sound.ledgers _ ledgered.successful)

theorem Room.sound (room : Room cfg now start scan) (sane : scan.Sane) (started : 1 ≤ now)
    (clock : GoText.InInt64 now) : Sound cfg now scan start :=
  ⟨fun _ ledgered => ledgered.takenBack room sane started clock,
    fun _ member _ stage => stage_storable room sane (by omega) member stage⟩

end Writing

/-! ## A scan -/

section Runs

variable {cfg : Config} {now : Int} {before initial final : World} {scan : Scan}
  {runs : List ScanRun}

theorem Result.empty_plain : Result.empty.Plain :=
  ⟨by decide, fun _ member => absurd member (AList.notMem_empty _),
    fun _ member => absurd member (AList.notMem_empty _)⟩

theorem World.Accepted.plain {r : Result} (accepted : before.Accepted)
    (read : acceptLedger before.ledger.read = .ok r) : r.Plain := by
  rcases accepted.ledger with absent | ⟨document, same, taken⟩
  · rw [absent] at read
    cases read
    exact Result.empty_plain
  · rw [same] at read
    rw [(acceptLedger_decoded.mp read).1]
    exact (takenBack_iff.mp taken).2.1

theorem Result.Plain.carried {r : Result} (plain : r.Plain) (clock : GoText.InInt64 now) :
    (r.carried now).Plain :=
  ⟨clock, plain.valid, plain.typed⟩

/-- What is written is read back, if the scan has room for what it has read so far. -/
abbrev KeptIf (cfg : Config) (now : Int) (before : World) (past : Past interface World)
    (moment : Moment interface World) : Prop :=
  (∀ r scan, acceptLedger before.ledger.read = .ok r → Validated scan past →
    Room cfg now (r.carried now) scan) → moment.operation.Kept

/-- What is known while only `Kept` operations are asked for. -/
theorem kept_keeps : Keeps system Operation.Kept (KeptIf cfg now before) fun _ _ => True :=
  fun _ _ _ _ _ kept _ _ => ⟨fun _ => kept, trivial⟩

/-- Without room nothing is promised. -/
theorem crowded_keeps {r : Result} (read : acceptLedger before.ledger.read = .ok r)
    (crowded : ¬Room cfg now (r.carried now) scan) :
    Keeps system (fun _ => True) (KeptIf cfg now before) fun past _ => Validated scan past :=
  fun _ _ _ _ _ _ _ validated =>
    ⟨fun room => absurd (room r scan read validated) crowded,
      validated.mono (List.suffix_cons _ _).subset⟩

theorem actOn_kept {r : Result} {past : Past interface World} {world : World}
    (read : acceptLedger before.ledger.read = .ok r) (started : 1 ≤ now)
    (clock : GoText.InInt64 now) (validated : Validated scan past) :
    Attempt.Guarded system (KeptIf cfg now before) (fun _ _ _ => True) (fun _ _ _ => True)
      (actOn cfg now scan (r.carried now)) past world := by
  by_cases room : Room cfg now (r.carried now) scan
  · have writes := actOn_writes (room.sound validated.sane started clock) validated.sane.nodup rfl
    apply Attempt.mono (writes.guarded kept_keeps trivial)
    · exact fun _ _ _ _ => trivial
    · exact fun _ _ _ _ => trivial
  · have anything : Attempt.Within (fun _ => True) (actOn cfg now scan (r.carried now)) :=
      Program.within_any _
    apply Attempt.mono (anything.guarded (crowded_keeps read room) validated)
    · exact fun _ _ _ _ => trivial
    · exact fun _ _ _ _ => trivial

theorem execute_kept (accepted : before.Accepted) (clock : GoText.InInt64 now)
    (carried : ∀ r, acceptLedger before.ledger.read = .ok r →
      (r.carried now).text.length ≤ 2 ^ 20) :
    Attempt.Guarded system (KeptIf cfg now before) (fun _ _ _ => True) (fun _ _ _ => True)
      (execute cfg now) [] before := by
  have reading : Keeps system (fun operation : Operation => operation.reads = true)
      (KeptIf cfg now before) fun _ _ => True := by
    apply kept_keeps.mono
    intro operation reads
    cases operation <;> trivial
  apply Attempt.bind_iff.mpr
  apply Attempt.ofExcept_iff.mpr
  cases checked : checkConfig cfg now with
  | error message => trivial
  | ok _ =>
  have started := checkConfig_started checked
  apply Attempt.call_bind.mpr
  intro read after₁ step₁
  refine ⟨fun _ => trivial, ?_⟩
  apply Attempt.bind_iff.mpr
  apply Attempt.ofExcept_iff.mpr
  cases outcome : acceptLedger read with
  | error message => trivial
  | ok r =>
  have known := acceptLedger_read step₁.2 outcome
  apply Attempt.bind_iff.mpr
  intro answer after₂ step₂
  refine ⟨fun _ => trivial, ?_⟩
  change Except String Unit at answer
  cases answer with
  | error message => trivial
  | ok _ =>
  have taken : (r.carried now).TakenBack :=
    takenBack_iff.mpr ⟨started, (accepted.plain known).carried clock, carried r known⟩
  apply Attempt.bind_iff.mpr
  apply Attempt.bind_iff.mpr
  apply Attempt.outcome_iff.mpr
  apply Guarded.post_mono (readScan_validates reading trivial)
  intro past₃ world₃ outcome ends
  cases outcome with
  | ok scan => exact actOn_kept known started clock ends.2
  | error message =>
      apply Attempt.bind_iff.mpr
      apply Attempt.mono ((publish_writes taken).guarded kept_keeps trivial)
      · exact fun _ _ _ _ => trivial
      · exact fun _ _ _ _ => trivial

/-- What is written in a scan that fits is read back as it is. -/
theorem Fits.kept {run : ScanRun} (fits : Fits run) (accepted : run.before.Accepted)
    (valid : run.Valid system fun scan => (execute scan.1 scan.2).run)
    {moment : Moment interface World} (member : moment ∈ run.moments) :
    moment.operation.Kept := by
  rcases List.append_of_mem member with ⟨earlier, later, split⟩
  have kept := (execute_kept accepted fits.clock fits.carried).moment_good valid split
  apply kept
  intro r scan read validated
  refine fits.room r scan read (validated.mono fun moment earlier => ?_)
  rw [List.append_nil] at earlier
  rw [split]
  exact List.mem_append_left _ (List.mem_reverse.mp earlier)

theorem World.Accepted.put {world : World} {name : Name} {content : Option Bytes}
    (accepted : world.Accepted)
    (own : ∀ text, content = some text → ∃ s, parseState text = .ok s) :
    World.Accepted { world with legacy := Function.update world.legacy name content } := by
  refine ⟨accepted.ledger, fun other text found => ?_⟩
  simp only [Function.update_apply] at found
  split at found
  · exact own text found
  · exact accepted.states other text found

/-- A step that writes what is read back leaves files that are accepted. -/
theorem World.Accepted.step {world after : World} {operation : Operation}
    {answer : Answer operation} (accepted : world.Accepted) (kept : operation.Kept)
    (step : system.Step world operation answer after) : after.Accepted := by
  cases operation with
  | writeLedger r =>
      change Except String Unit at answer
      cases answer with
      | error message => exact (show after = world from step) ▸ accepted
      | ok _ =>
          cases step
          exact ⟨.inr ⟨r, rfl, kept⟩, accepted.states⟩
  | writeState name content =>
      change Except String Unit at answer
      cases answer with
      | error message => exact (show after = world from step) ▸ accepted
      | ok _ =>
          cases step
          rcases kept with ⟨s, _, parsed⟩
          exact accepted.put fun text same => ⟨s, Option.some.inj same ▸ parsed⟩
  | removeState name =>
      change Except String Unit at answer
      cases answer with
      | error message => exact (show after = world from step) ▸ accepted
      | ok _ =>
          cases step
          exact accepted.put fun text impossible => nomatch impossible
  | readLedger => exact step.1 ▸ accepted
  | readState name => exact step.1 ▸ accepted
  | globStates => exact step.1 ▸ accepted
  | _ => exact (show after = world from step) ▸ accepted

theorem Fits.accepted {run : ScanRun} (fits : Fits run) (accepted : run.before.Accepted)
    (valid : run.Valid system fun scan => (execute scan.1 scan.2).run) : run.after.Accepted :=
  valid.keeps (fun _ member step before => before.step (fits.kept accepted valid member) step)
    accepted

/-- As long as its scans fit, no history of scans, killed or not, leaves a file that the next scan
turns down, and whatever is written is read back as it is. -/
theorem own_files_accepted (scans : Scans initial runs final) (accepted : initial.Accepted)
    (fits : ∀ run ∈ runs, Fits run) :
    final.Accepted ∧ ∀ run ∈ runs, run.before.Accepted ∧ run.after.Accepted ∧
      ∀ moment ∈ run.moments, moment.operation.Kept := by
  induction scans with
  | start => exact ⟨accepted, fun run member => nomatch member⟩
  | next earlier run continues valid induction =>
      have ⟨middle, each⟩ := induction fun run member => fits run (List.mem_append_left _ member)
      have last := fits run (List.mem_append_right _ List.mem_cons_self)
      rw [← continues] at middle
      have after := last.accepted middle valid
      refine ⟨after, fun other member => ?_⟩
      rcases List.mem_append.mp member with earlier | same
      · exact each other earlier
      · rw [List.mem_singleton] at same
        rw [same]
        exact ⟨middle, after, fun moment member => last.kept middle valid member⟩

end Runs

/-! ## The first scan -/

/-- What the first scan was told: one container, which is unhealthy and has no state file. -/
def toldFirst (moment : Moment interface World) : Bool :=
  match moment.operation, moment.answer with
  | .psUnhealthy, (answer : Except String Bytes) =>
      match answer with
      | .ok data => decide (data = ascii "web\n")
      | .error _ => false
  | .psAll, (answer : Except String Bytes) =>
      match answer with
      | .ok data => decide (data = ascii "web|running|unhealthy\n")
      | .error _ => false
  | .readState _, (answer : StateRead) =>
      match answer with
      | .notExist => true
      | _ => false
  | _, _ => true

theorem firstScan_told : firstScan.moments.all toldFirst = true := by decide +kernel

/-- Whatever is validated in the first scan is this. -/
theorem firstScan_read {scan : Scan} (validated : Validated scan firstScan.moments) :
    scan.all = [ascii "web"] ∧ scan.unhealthy = [ascii "web"] ∧
      scan.states.lookup (ascii "web") = none := by
  have told (operation : Operation) (answer : Answer operation)
      (answered : Answered operation answer firstScan.moments) :
      ∃ before after, toldFirst ⟨before, operation, answer, after⟩ = true := by
    rcases answered with ⟨before, after, member⟩
    exact ⟨before, after, List.all_eq_true.mp firstScan_told _ member⟩
  rcases validated with ⟨⟨u, unhealthy, first⟩, ⟨a, present, second⟩, _, states⟩
  rcases told _ _ unhealthy with ⟨_, _, uSame⟩
  rcases told _ _ present with ⟨_, _, aSame⟩
  simp only [toldFirst, decide_eq_true_eq] at uSame aSame
  have unhealthySame : scan.unhealthy = [ascii "web"] := by
    have computed : names (ascii "web\n") = .ok [ascii "web"] := by decide +kernel
    rw [uSame, computed] at first
    exact (Except.ok.inj first).symm
  have allSame : scan.all = [ascii "web"] := by
    have computed : inventory (ascii "web|running|unhealthy\n") =
        .ok ([ascii "web"], [(ascii "web", ⟨.running, .unhealthy⟩)]) := by decide +kernel
    rw [aSame, computed] at second
    exact (congrArg Prod.fst (Except.ok.inj second)).symm
  refine ⟨allSame, unhealthySame, ?_⟩
  have inspected := states (ascii "web") (by rw [allSame]; exact List.mem_cons_self)
  unfold Inspected at inspected
  split at inspected
  · next absent => exact absent
  · rcases inspected with ⟨content, read, _⟩
    rcases told _ _ read with ⟨_, _, impossible⟩
    cases impossible

theorem firstScan_fits : Fits firstScan where
  clock := by decide
  carried r read := by
    cases read
    decide +kernel
  room r scan read validated := by
    cases read
    rcases firstScan_read validated with ⟨all, unhealthy, states⟩
    have state : scan.state (ascii "web") = .zero := by rw [Scan.state, states]; rfl
    have bad : scan.bad (ascii "web") = true := by
      rw [Scan.bad, unhealthy]
      exact decide_eq_true List.mem_cons_self
    have plan : scan.plan samplePolicy 1000 (ascii "web") =
        ⟨⟨1, 0, 0, 0⟩, .restart, false⟩ := by
      rw [Scan.plan, state, bad]
      decide
    have stages : scan.stages samplePolicy 1000 (Result.empty.carried 1000) (ascii "web") =
        [⟨⟨1, 0, 0, 0⟩, true, false⟩, ⟨⟨1, 0, 0, 0⟩, true, true⟩, ⟨⟨0, 1, 1000, 0⟩, true, false⟩,
          ⟨⟨1, 0, 0, 1000⟩, true, true⟩] := by
      have failed : ((Result.empty.carried 1000).container (ascii "web")).restartFailed = false :=
        rfl
      rw [Scan.stages, observe, plan, bad, failed, Bool.and_false]
      rfl
    have moves : scan.moves = 1 := by
      rw [Scan.moves, all, List.filter_cons_of_pos bad]
      rfl
    refine ⟨?_, ?_, fun _ _ _ => by decide, ?_⟩
    · intro name member _
      rw [all, List.mem_singleton] at member
      rw [member, state]
      decide
    · intro name member _
      rw [all, List.mem_singleton] at member
      change (scan.plan samplePolicy 1000 name).state.restarts < 2 ^ 53
      rw [member, plan]
      decide
    · change scan.ledgerWidth samplePolicy 1000 (Result.empty.carried 1000) ≤ 2 ^ 20
      rw [Scan.ledgerWidth, all, moves, List.map_singleton, Scan.widest, stages]
      decide +kernel

theorem fresh_accepted : World.fresh.Accepted := ⟨.inl rfl, fun _ _ found => nomatch found⟩

theorem firstScan_accepted : firstScan.after.Accepted ∧
    ∀ run ∈ [firstScan], run.before.Accepted ∧ run.after.Accepted ∧
      ∀ moment ∈ run.moments, moment.operation.Kept :=
  own_files_accepted firstScan_scans fresh_accepted fun _ member =>
    List.mem_singleton.mp member ▸ firstScan_fits

/-! ## A streak that the reader cannot take -/

/-- A container that was unhealthy in as many polls as a state file can count, and that has used
up its restarts. -/
def countedWorld : World :=
  ⟨.absent, fun name => if name = ascii "web" then some (State.bytes ⟨2 ^ 53, 1, 1000, 0⟩)
    else none⟩

theorem countedWorld_accepted : countedWorld.Accepted := by
  refine ⟨.inl rfl, fun name content found => ?_⟩
  simp only [countedWorld] at found
  split at found
  · cases found
    exact ⟨⟨2 ^ 53, 1, 1000, 0⟩, by decide +kernel⟩
  · cases found

/-- The scan counts one poll more, and the next scan turns its file down. -/
theorem counted_rejected : ∃ first second : ScanRun,
    Scans countedWorld [first, second] second.after ∧ countedWorld.Accepted ∧
      first.outcome.isSome = true ∧ ¬first.after.Accepted ∧
      second.outcome = some (.error "watchdog: invalid state value") := by
  let first := steadyScan samplePolicy 1000 countedWorld
  let second := steadyScan samplePolicy 1000 first.after
  have scans : Scans countedWorld [first, second] second.after :=
    .next (.next .start first rfl (steadyScan_valid _ _ _)) second rfl (steadyScan_valid _ _ _)
  refine ⟨first, _, scans, countedWorld_accepted, by decide +kernel, fun accepted => ?_,
    by decide +kernel⟩
  have written : first.after.legacy (ascii "web") =
      some (State.bytes ⟨2 ^ 53 + 1, 1, 1000, 1000⟩) := by decide +kernel
  have rejected : parseState (State.bytes ⟨2 ^ 53 + 1, 1, 1000, 1000⟩) =
      .error "watchdog: invalid state value" := by decide +kernel
  rcases accepted.states _ _ written with ⟨s, parsed⟩
  rw [rejected] at parsed
  cases parsed

end Homelab.Watchdog
