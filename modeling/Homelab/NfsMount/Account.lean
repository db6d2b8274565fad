import Homelab.Foundation.Double
import Homelab.NfsMount.Evidence

/-! # What the records say

The record of an export agrees with what happened since the supervisor started: its
recoveries are the attempts that were announced, and its last read is the time after the
latest check that found the export healthy.
-/

namespace Homelab.NfsMount

open Effects Text

/-! ## Clocks, attempts and writes -/

def wall : (operation : Operation) → Answer operation → Option Int
  | .time, now => some now
  | _, _ => none

def tick : (operation : Operation) → Answer operation → Option ℚ
  | .monotonic, now => some now
  | _, _ => none

def written : Operation → Option Status
  | .writeStatus _ status => some status
  | _ => none

def announced (name : Export) : Operation → Bool
  | .announce _ other _ => other = name
  | _ => false

def times (past : Past interface World) : List Int :=
  past.filterMap fun moment => wall moment.operation moment.answer

def ticks (past : Past interface World) : List ℚ :=
  past.filterMap fun moment => tick moment.operation moment.answer

def statuses (past : Past interface World) : List Status :=
  past.filterMap fun moment => written moment.operation

def attempts (name : Export) (past : Past interface World) : Nat :=
  past.countP fun moment => announced name moment.operation

/-- The wall clock is positive and never goes back, and both clocks count in doubles. -/
structure Timed (past : Past interface World) : Prop where
  positive : ∀ now ∈ times past, 0 < now
  ordered : (times past).Pairwise (· ≥ ·)
  double : ∀ now ∈ times past, ∃ double, Double.nearest now = some double
  ticks : ∀ now ∈ ticks past, now < 2 ^ 1024

theorem Timed.of_append {newer past : Past interface World} (timed : Timed (newer ++ past)) :
    Timed past := by
  have grown : times (newer ++ past) = times newer ++ times past := List.filterMap_append
  have ticked : NfsMount.ticks (newer ++ past) = NfsMount.ticks newer ++ NfsMount.ticks past :=
    List.filterMap_append
  constructor
  · intro now member
    exact timed.positive now (grown ▸ List.mem_append_right _ member)
  · have ordered := timed.ordered
    rw [grown] at ordered
    exact (List.pairwise_append.mp ordered).2.1
  · intro now member
    exact timed.double now (grown ▸ List.mem_append_right _ member)
  · intro now member
    exact timed.ticks now (ticked ▸ List.mem_append_right _ member)

theorem Timed.tail {moment : Moment interface World} {past : Past interface World}
    (timed : Timed (moment :: past)) : Timed past := by
  have whole : Timed ([moment] ++ past) := timed
  exact whole.of_append

/-! ## Checks -/

def Checked (cfg : Config) (name : Export) (past : Past interface World) : Prop :=
  ∃ newer segment older before after, past = newer ++ (segment ++ older) ∧
    ((∃ exports, Executes system (inspect cfg).run before segment.reverse after
        (some (.ok exports)) ∧ (exports.get name).state = .healthy) ∨
      ∃ source item result, Executes system (settle cfg source name item true).run before
        segment.reverse after (some (.ok result)) ∧ result.state = .healthy)

theorem Checked.later {cfg : Config} {name : Export} {past : Past interface World}
    (checked : Checked cfg name past) (newer : Past interface World) :
    Checked cfg name (newer ++ past) := by
  rcases checked with ⟨first, segment, older, before, after, rfl, found⟩
  exact ⟨newer ++ first, segment, older, before, after, (List.append_assoc _ _ _).symm, found⟩

/-- A check that finds the export healthy has read it. -/
theorem Checked.readable {cfg : Config} {name : Export} {past : Past interface World}
    (checked : Checked cfg name past) : Readable cfg name past := by
  have calm : Calm fun (_ : Past interface World) (_ : Moment interface World) => True :=
    fun _ _ _ => trivial
  rcases checked with ⟨newer, segment, older, before, after, rfl, found⟩
  have start : Since [] before.clock [] before := Since.now
  have inside : Readable cfg name segment := by
    rcases found with ⟨exports, inspection, healthy⟩ | ⟨source, item, result, settled, healthy⟩
    · have looked := (inspect_since calm start).result inspection
      rw [List.reverse_reverse, List.append_nil] at looked
      exact looked.2 name healthy
    · have looked := (settle_since calm start).result settled
      rw [List.reverse_reverse, List.append_nil] at looked
      exact looked.2 rfl healthy
  apply inside.mono
  intro moment member
  simp [member]

/-! ## Records -/

/-- What the record of an export says. `seen` is whether a read succeeded that is not stamped
yet. -/
structure Account (cfg : Config) (name : Export) (past : Past interface World) (record : Record)
    (seen : Prop) : Prop where
  attempts : record.recoveries = attempts name past
  paced : 300 * (record.recoveries : ℚ) ≤ record.attemptAt + 300
  ticked : record.attemptAt = -300 ∨ record.attemptAt ∈ ticks past
  stamped : record.lastReadOk = 0 ∨ record.lastReadOk ∈ times past
  reads : Readable cfg name past → record.lastReadOk ≠ 0 ∨ seen
  checked : record.lastReadOk ≠ 0 → Checked cfg name past
  stamps : ∀ status ∈ statuses past, (status.exports.get name).lastReadOk = 0 ∨
    (status.exports.get name).lastReadOk ∈ times past
  grows : ∀ status ∈ statuses past, (status.exports.get name).lastReadOk ≤ record.lastReadOk

def Accounts (cfg : Config) (name : Export) (record : Record) (seen : Prop)
    (past : Past interface World) (_ : World) : Prop :=
  Timed past → Account cfg name past record seen

/-- What is written of an export is its record, and the time is the latest. -/
structure Recorded (cfg : Config) (name : Export) (past : Past interface World)
    (status : Status) : Prop where
  report : ∃ item record, status.exports.get name = report item record ∧
    Account cfg name past record False
  now : status.checkedAt ∈ times past
  latest : ∀ time ∈ times past, time ≤ status.checkedAt

def Writes (cfg : Config) (name : Export) (past : Past interface World)
    (moment : Moment interface World) : Prop :=
  ∀ status, written moment.operation = some status → Timed past →
    Recorded cfg name past status

def Elsewhere (cfg : Config) (name : Export) (command : Command) : Prop :=
  ∀ path ∈ name.probes, command ≠ readProbeCommand cfg path

/-- An operation that the record of the export does not count. -/
def Foreign (cfg : Config) (name : Export) : Operation → Prop
  | .launch command _ => Elsewhere cfg name command
  | .announce _ other _ => other ≠ name
  | .writeStatus _ _ => False
  | _ => True

instance {cfg : Config} {name : Export} : Covers (Elsewhere cfg name) (Foreign cfg name) where
  pending := trivial
  poll _ := trivial
  forget _ := trivial
  remember _ _ := trivial
  launch _ _ asked := asked
  time := trivial
  getpwnam _ := trivial
  isFile _ := trivial

section

variable {cfg : Config} {name : Export} {past : Past interface World} {world after : World}
  {record : Record} {seen : Prop}

theorem attempts_cons (moment : Moment interface World) :
    attempts name (moment :: past) =
      attempts name past + if announced name moment.operation then 1 else 0 :=
  List.countP_cons

theorem mem_times_cons {now : Int} (moment : Moment interface World)
    (member : now ∈ times past) : now ∈ times (moment :: past) := by
  have grown : times ([moment] ++ past) = times [moment] ++ times past := List.filterMap_append
  exact grown ▸ List.mem_append_right _ member

theorem mem_ticks_cons {now : ℚ} (moment : Moment interface World)
    (member : now ∈ ticks past) : now ∈ ticks (moment :: past) := by
  have grown : ticks ([moment] ++ past) = ticks [moment] ++ ticks past := List.filterMap_append
  exact grown ▸ List.mem_append_right _ member

theorem readable_cons {moment : Moment interface World} :
    Readable cfg name (moment :: past) ↔ Readable cfg name past ∨
      ∃ path ∈ name.probes, Succeeded (readProbeCommand cfg path) moment := by
  simp only [Readable, List.exists_mem_cons_iff]
  exact or_comm

/-- Whether a read succeeds or not, the rest of the account is kept by what is neither an
attempt nor a write. -/
theorem Account.cons {moment : Moment interface World} {next : Prop}
    (account : Account cfg name past record seen)
    (quiet : announced name moment.operation = false)
    (silent : written moment.operation = none)
    (reads : Readable cfg name (moment :: past) → record.lastReadOk ≠ 0 ∨ next) :
    Account cfg name (moment :: past) record next := by
  have same : statuses (moment :: past) = statuses past := List.filterMap_cons_none silent
  constructor
  · rw [attempts_cons, quiet]
    exact account.attempts
  · exact account.paced
  · exact account.ticked.imp id (mem_ticks_cons moment)
  · exact account.stamped.imp id (mem_times_cons moment)
  · exact reads
  · exact fun stamped => (account.checked stamped).later [moment]
  · rw [same]
    exact fun status member => (account.stamps status member).imp id (mem_times_cons moment)
  · rw [same]
    exact account.grows

/-- Foreign operations keep the account. -/
theorem foreign_keeps : Keeps system (Foreign cfg name) (Writes cfg name)
    (Accounts cfg name record seen) := by
  intro past world operation answer after foreign step account
  have quiet : announced name operation = false := by
    cases operation with
    | announce action other reason => exact decide_eq_false foreign
    | _ => rfl
  have silent : written operation = none := by
    cases operation with
    | writeStatus => exact foreign.elim
    | _ => rfl
  refine ⟨fun status wrote => ?_, fun timed => ?_⟩
  · rw [silent] at wrote
    cases wrote
  · refine (account timed.tail).cons quiet silent fun readable => ?_
    rcases readable_cons.mp readable with before | ⟨path, probe, succeeded⟩
    · exact (account timed.tail).reads before
    · rcases succeeded with ⟨_, timeout, completed, _, same, _⟩
      cases same
      exact absurd rfl (foreign path probe)

theorem Account.seen_mono {next : Prop} (account : Account cfg name past record seen)
    (imp : seen → next) : Account cfg name past record next :=
  { account with reads := fun readable => (account.reads readable).imp id imp }

/-! ## Reading -/

/-- A read of the export is only seen if it succeeds. -/
theorem runProbe_accounts {path : String} (account : Accounts cfg name record False past world) :
    Attempt.Guarded system (Writes cfg name)
      (fun past world result => Accounts cfg name record (result.returncode = 0) past world)
      (fun _ _ _ => True) (run (readProbeCommand cfg path) 8) past world := by
  have covers : Covers (Elsewhere cfg name) (Foreign cfg name) := inferInstance
  apply run_rule covers foreign_keeps account
  intro past before keys after _ _ account
  split
  · exact fun timed => (account timed).seen_mono False.elim
  · apply ask_bind.mpr
    intro launched world₂ step₂
    change Launched at launched
    have unseen (failed : launched.succeeded = false) : Accounts cfg name record False
        (⟨after, .launch (readProbeCommand cfg path) 8, launched, world₂⟩ ::
          ⟨before, .pending, keys, after⟩ :: past) world₂ := by
      intro timed
      refine (account timed.tail).cons rfl rfl fun readable => ?_
      rcases readable_cons.mp readable with before | ⟨path, probe, succeeded⟩
      · exact (account timed.tail).reads before
      · rcases succeeded with ⟨_, timeout, completed, _, same, ended⟩
        cases same
        rw [Launched.succeeded, decide_eq_false_iff_not] at failed
        exact absurd ended failed
    refine ⟨fun status wrote => (by cases wrote), ?_⟩
    cases launched with
    | refused message => exact fun timed => (unseen rfl timed).seen_mono False.elim
    | undecodable => trivial
    | expired blocked =>
        cases blocked with
        | false => exact fun timed => (unseen rfl timed).seen_mono False.elim
        | true =>
            apply ask_bind.mpr
            intro answer world₃ step₃
            have ⟨now₃, account₃⟩ := foreign_keeps _ _
              (.remember (readProbeCommand cfg path)) answer world₃ trivial step₃ (unseen rfl)
            exact ⟨now₃, fun timed => (account₃ timed).seen_mono False.elim⟩
    | finished completed =>
        by_cases ended : completed.returncode = 0
        · intro timed
          exact (account timed.tail).cons rfl rfl fun _ => .inr ended
        · exact fun timed =>
            (unseen (decide_eq_false ended) timed).seen_mono False.elim

/-- A healthy export has been read, and one that has been read is healthy. -/
theorem health_accounts {status : Completed}
    (account : Accounts cfg name record False past world) :
    Attempt.Guarded system (Writes cfg name)
      (fun past world result => Accounts cfg name record (result.1 = .healthy) past world)
      (fun _ _ _ => True) (health cfg name.target name.probes status) past world := by
  unfold health
  split
  · exact fun timed => (account timed).seen_mono False.elim
  · split
    · have single : name.probes = [name.target ++ "/" ++ ".homelab-nfs-probe"] := rfl
      rw [single, readProbes]
      have read : Attempt.Guarded system (Writes cfg name)
          (fun past world result => Accounts cfg name record (result.1 = true) past world)
          (fun _ _ _ => True)
          (readProbe cfg (name.target ++ "/" ++ ".homelab-nfs-probe")) past world := by
        apply Attempt.bind (runProbe_accounts account)
        intro past₁ world₁ result account₁ timed
        exact (account₁ timed).seen_mono decide_eq_true
      apply Attempt.bind read
      rintro past₁ world₁ ⟨ok, reason⟩ account₁
      dsimp only at account₁ ⊢
      split
      · exact fun timed => (account₁ timed).seen_mono fun _ => rfl
      · next failed =>
          split
          · exact fun timed => (account₁ timed).seen_mono fun ok => absurd ok failed
          · exact fun timed => (account₁ timed).seen_mono fun ok => absurd ok failed
    · exact fun timed => (account timed).seen_mono False.elim

/-! ## Other commands -/

theorem elsewhere_mountList : Elsewhere cfg name mountList := by
  simp [Elsewhere, mountList, readProbeCommand]

theorem elsewhere_nfsstat : Elsewhere cfg name nfsstat := by
  simp [Elsewhere, nfsstat, readProbeCommand]

theorem elsewhere_netcat (ip : String) : Elsewhere cfg name (netcat ip) := by
  simp [Elsewhere, netcat, readProbeCommand]

theorem elsewhere_umount (target : String) : Elsewhere cfg name (umount target) := by
  simp [Elsewhere, umount, readProbeCommand]

theorem elsewhere_diskutil (target : String) : Elsewhere cfg name (diskutil target) := by
  simp [Elsewhere, diskutil, readProbeCommand]

theorem elsewhere_mkdir (target : String) : Elsewhere cfg name (mkdir target) := by
  simp [Elsewhere, mkdir, readProbeCommand]

theorem elsewhere_mountNfs (source target : String) :
    Elsewhere cfg name (mountNfs source target) := by
  simp [Elsewhere, mountNfs, readProbeCommand]

theorem elsewhere_launchctlPrint (label : String) :
    Elsewhere cfg name (launchctlPrint label) := by
  simp [Elsewhere, launchctlPrint, readProbeCommand]

theorem elsewhere_bootout (label : String) : Elsewhere cfg name (bootout label) := by
  simp [Elsewhere, bootout, readProbeCommand]

theorem elsewhere_publish : Elsewhere cfg name (publishCommand cfg) := by
  simp [Elsewhere, publishCommand, readProbeCommand]

/-- The worker's plist is no probe. -/
theorem elsewhere_bootstrap (domain : String) : Elsewhere cfg name (bootstrap domain) := by
  have other : ∀ path ∈ name.probes, nodePlist ≠ path := by
    cases name <;> decide
  intro path probe same
  simp only [bootstrap, readProbeCommand, List.cons.injEq] at same
  exact other path probe same.2.2.2.1

theorem elsewhere_other {other : Export} (different : other ≠ name) {path : String}
    (probe : path ∈ other.probes) : Elsewhere cfg name (readProbeCommand cfg path) := by
  have apart : ∀ path ∈ other.probes, ∀ own ∈ name.probes, path ≠ own := by
    cases name <;> cases other <;> first | exact absurd rfl different | decide
  intro own member same
  simp only [readProbeCommand, List.cons.injEq] at same
  exact apart path probe own member same.2.2.2.1

/-! ## The parts of a pass -/

/-- What is neither an attempt nor a write, and reads elsewhere, keeps the account. -/
theorem foreign_accounts {α : Type} {attempt : Py α} (within : attempt.Within (Foreign cfg name))
    (account : Accounts cfg name record seen past world) :
    Attempt.Guarded system (Writes cfg name)
      (fun past world _ => Accounts cfg name record seen past world) (fun _ _ _ => True) attempt
      past world :=
  Attempt.any_error (within.guarded foreign_keeps account)

/-- A check that was made stays one. -/
theorem foreign_checked {α : Type} {attempt : Py α} (within : attempt.Within (Foreign cfg name))
    (account : Accounts cfg name record seen past world) (checked : seen → Checked cfg name past) :
    Attempt.Guarded system (Writes cfg name)
      (fun past world _ => Accounts cfg name record seen past world ∧
        (seen → Checked cfg name past))
      (fun _ _ _ => True) attempt past world := by
  have keeps : Keeps system (Foreign cfg name) (Writes cfg name) (fun past world =>
      Accounts cfg name record seen past world ∧ (seen → Checked cfg name past)) := by
    intro past world operation answer after foreign step holds
    have ⟨good, kept⟩ := foreign_keeps _ _ _ answer after foreign step holds.1
    exact ⟨good, kept, fun saw => (holds.2 saw).later [_]⟩
  exact Attempt.any_error (within.guarded keeps ⟨account, checked⟩)

theorem run_accounts {command : Command} {timeout : Nat} (elsewhere : Elsewhere cfg name command)
    (account : Accounts cfg name record seen past world) :
    Attempt.Guarded system (Writes cfg name)
      (fun past world _ => Accounts cfg name record seen past world) (fun _ _ _ => True)
      (run command timeout) past world :=
  foreign_accounts (run_within elsewhere) account

theorem inspectExport_accounts {sources : Option (List (Line × Line))} {status : Completed}
    (account : Accounts cfg name record False past world) :
    Attempt.Guarded system (Writes cfg name)
      (fun past world item => Accounts cfg name record (item.state = .healthy) past world)
      (fun _ _ _ => True) (inspectExport cfg sources status name) past world := by
  simp only [inspectExport]
  split
  · exact fun timed => (account timed).seen_mono False.elim
  · split
    · exact fun timed => (account timed).seen_mono False.elim
    · apply Attempt.bind (health_accounts account)
      exact fun past world result holds => holds

theorem inspect_accounts (account : Accounts cfg name record False past world) :
    Attempt.Guarded system (Writes cfg name)
      (fun past world exports =>
        Accounts cfg name record ((exports.get name).state = .healthy) past world)
      (fun _ _ _ => True) (inspect cfg) past world := by
  have list : Elsewhere cfg name mountList := elsewhere_mountList
  apply Attempt.bind (foreign_accounts (mountedSources_within list) account)
  intro past₁ world₁ sources account₁
  apply Attempt.bind (run_accounts elsewhere_nfsstat account₁)
  intro past₂ world₂ status account₂
  cases name with
  | srv =>
      apply Attempt.bind (inspectExport_accounts account₂)
      intro past₃ world₃ srv account₃
      have other : ∀ path ∈ Export.generated.probes,
          Elsewhere cfg .srv (readProbeCommand cfg path) :=
        fun path => elsewhere_other (by decide)
      apply Attempt.bind (foreign_accounts (inspectExport_within other _ _) account₃)
      exact fun past world generated holds => holds
  | generated =>
      have other : ∀ path ∈ Export.srv.probes,
          Elsewhere cfg .generated (readProbeCommand cfg path) :=
        fun path => elsewhere_other (by decide)
      apply Attempt.bind (foreign_accounts (inspectExport_within other _ _) account₂)
      intro past₃ world₃ srv account₃
      apply Attempt.bind (inspectExport_accounts account₃)
      exact fun past world generated holds => holds

/-- A read that was seen is stamped. -/
theorem stampRead_accounts {readOk : Bool}
    (account : Accounts cfg name record (readOk = true) past world)
    (checked : readOk = true → Checked cfg name past) :
    Attempt.Guarded system (Writes cfg name)
      (fun past world result => Accounts cfg name result False past world ∧
        ∃ stamp, result = { record with lastReadOk := stamp })
      (fun _ _ _ => True) (stampRead readOk record) past world := by
  unfold stampRead
  split
  · next ok =>
      apply ask_bind.mpr
      intro now world₁ step₁
      refine ⟨fun status wrote => (by cases wrote), fun timed => ?_, now, rfl⟩
      have member : now ∈ times (⟨world, .time, now, world₁⟩ :: past) := List.mem_cons_self
      have first : ∀ time ∈ times past, time ≤ now := by
        have ordered : (now :: times past).Pairwise (· ≥ ·) := timed.ordered
        exact (List.pairwise_cons.mp ordered).1
      have positive := timed.positive now member
      have kept := account timed.tail
      have grown : Account cfg name (⟨world, .time, now, world₁⟩ :: past) record (readOk = true) :=
        kept.cons rfl rfl fun _ => .inr ok
      refine { grown with
        stamped := .inr member
        reads := fun _ => .inl positive.ne'
        checked := fun _ => (checked ok).later [_]
        grows := ?_ }
      intro status wrote
      rcases kept.stamps status wrote with zero | stamped
      · change (status.exports.get name).lastReadOk ≤ now
        omega
      · exact first _ stamped
  · next failed =>
      exact ⟨fun timed => (account timed).seen_mono fun ok => absurd ok failed,
        record.lastReadOk, rfl⟩

/-- The check after a recovery. -/
theorem settle_accounts {source : String} {item : Item} {mounted : Bool}
    (account : Accounts cfg name record False past world) :
    Attempt.Guarded system (Writes cfg name)
      (fun past world item =>
        Accounts cfg name record ((mounted && item.state = .healthy) = true) past world ∧
          ((mounted && item.state = .healthy) = true → Checked cfg name past))
      (fun _ _ _ => True) (settle cfg source name item mounted) past world := by
  cases mounted with
  | false => exact ⟨fun timed => (account timed).seen_mono False.elim, fun ok => by cases ok⟩
  | true =>
      have stat : Elsewhere cfg name nfsstat := elsewhere_nfsstat
      have settled : Attempt.Guarded system (Writes cfg name)
          (fun past world item => Accounts cfg name record (item.state = .healthy) past world)
          (fun _ _ _ => True) (settle cfg source name item true) past world := by
        apply Attempt.bind (run_accounts stat account)
        intro past₁ world₁ status account₁
        apply Attempt.bind (health_accounts account₁)
        exact fun past world result holds => holds
      apply Attempt.result_mono (Attempt.recorded settled)
      rintro past' world' item' ⟨account', moments, rfl, executed⟩
      simp only [Bool.true_and, decide_eq_true_eq]
      refine ⟨account', fun healthy => ?_⟩
      refine ⟨[], moments.reverse, past, world, world', rfl,
        .inr ⟨source, item, item', ?_, healthy⟩⟩
      rw [List.reverse_reverse]
      exact executed

theorem recoverWithWorker_foreign (source target : String) (action : Action) :
    (recoverWithWorker source target action).Within (Foreign cfg name) := by
  have list : Elsewhere cfg name mountList := elsewhere_mountList
  have shown (label : String) : Elsewhere cfg name (launchctlPrint label) :=
    elsewhere_launchctlPrint label
  have loaded (domain : String) : Elsewhere cfg name (bootstrap domain) :=
    elsewhere_bootstrap domain
  apply (stopFor_within shown elsewhere_bootout target action).bind
  intro stopped
  cases stopped with
  | none => exact Attempt.within_pure _
  | some domain =>
      have recovered : (recover source target action).Within (Foreign cfg name) :=
        recover_within list (elsewhere_umount _) (elsewhere_diskutil _) (elsewhere_mkdir _)
          (elsewhere_mountNfs _ _) action
      apply recovered.outcome.bind
      intro outcome
      apply (resumeWorker_within loaded domain).bind
      intro resumed
      apply (Attempt.within_ofExcept outcome).bind
      exact fun _ => Attempt.within_pure _

/-- Attending to another export. -/
theorem attend_foreign {other : Export} (different : other ≠ name) (source : String) (item : Item)
    (record : Record) : (attend cfg source other item record).Within (Foreign cfg name) := by
  have stat : Elsewhere cfg name nfsstat := elsewhere_nfsstat
  have probe : ∀ path ∈ other.probes, Elsewhere cfg name (readProbeCommand cfg path) :=
    fun path => elsewhere_other different
  have attempted (action : Action) (record : Record) :
      (attempt cfg source other action item record).Within (Foreign cfg name) := by
    apply Attempt.Within.bind (ask_within (.announce action other item.reason) different)
    intro answer
    apply Attempt.Within.bind (ask_within .monotonic trivial)
    intro now
    apply (recoverWithWorker_foreign _ _ action).bind
    intro mounted
    apply (settle_within stat probe _ item mounted).bind
    intro settled
    apply (stampRead_steady trivial _ _).within.bind
    exact fun _ => Attempt.within_pure _
  apply (stampRead_steady trivial _ _).within.bind
  intro stamped
  apply Attempt.Within.bind (ask_within .monotonic trivial)
  intro now
  split
  · exact Attempt.within_pure _
  · exact attempted _ _

theorem Account.of_eq {other : Record} (account : Account cfg name past record seen)
    (recoveries : other.recoveries = record.recoveries)
    (attemptAt : other.attemptAt = record.attemptAt)
    (lastReadOk : other.lastReadOk = record.lastReadOk) :
    Account cfg name past other seen := by
  constructor
  · rw [recoveries]
    exact account.attempts
  · rw [recoveries, attemptAt]
    exact account.paced
  · rw [attemptAt]
    exact account.ticked
  · rw [lastReadOk]
    exact account.stamped
  · rw [lastReadOk]
    exact account.reads
  · rw [lastReadOk]
    exact account.checked
  · exact account.stamps
  · rw [lastReadOk]
    exact account.grows

/-- The announcement of an attempt, and the time that is taken then. -/
theorem Account.announce {action : Action} {reason : String} {now : ℚ} {middle : World}
    (account : Account cfg name past record False) (rested : record.attemptAt + 300 ≤ now) :
    Account cfg name
      (⟨middle, .monotonic, now, after⟩ :: ⟨world, .announce action name reason, (), middle⟩ ::
        past)
      { record with attemptAt := now, recoveries := record.recoveries + 1 } False := by
  have unread : Readable cfg name (⟨middle, .monotonic, now, after⟩ ::
      ⟨world, .announce action name reason, (), middle⟩ :: past) → Readable cfg name past := by
    intro readable
    rcases readable_cons.mp readable with readable | ⟨_, _, _, _, _, _, same, _⟩
    · rcases readable_cons.mp readable with readable | ⟨_, _, _, _, _, _, same, _⟩
      · exact readable
      · cases same
    · cases same
  constructor
  · rw [attempts_cons, attempts_cons, ← account.attempts]
    simp [announced]
  · have paced := account.paced
    push_cast
    linarith
  · exact .inr List.mem_cons_self
  · exact account.stamped
  · exact fun readable => account.reads (unread readable)
  · exact fun stamped => (account.checked stamped).later [_, _]
  · exact account.stamps
  · exact account.grows

theorem attempt_accounts {ip : String} {action : Action} {item : Item}
    (account : Accounts cfg name record False past world)
    (rested : record.attemptAt + 300 ≤ world.clock) :
    Attempt.Guarded system (Writes cfg name)
      (fun past world result => Accounts cfg name result.2 False past world)
      (fun _ _ _ => True) (attempt cfg ip name action item record) past world := by
  apply ask_bind.mpr
  intro answer₁ world₁ step₁
  refine ⟨fun status wrote => (by cases wrote), ask_bind.mpr ?_⟩
  intro now world₂ step₂
  refine ⟨fun status wrote => (by cases wrote), ?_⟩
  have later : record.attemptAt + 300 ≤ now :=
    rested.trans ((clock_le step₁).trans step₂.ticking.1)
  have account₂ : Accounts cfg name
      { record with attemptAt := now, recoveries := record.recoveries + 1 } False
      (⟨world₁, .monotonic, now, world₂⟩ ::
        ⟨world, .announce action name item.reason, answer₁, world₁⟩ :: past) world₂ :=
    fun timed => (account timed.tail.tail).announce later
  apply Attempt.bind (foreign_accounts (recoverWithWorker_foreign _ _ action) account₂)
  intro past₃ world₃ mounted account₃
  apply Attempt.bind (settle_accounts account₃)
  rintro past₄ world₄ settled ⟨account₄, checked⟩
  have account₅ : Accounts cfg name { record with
      attemptAt := now, recoveries := record.recoveries + 1,
      recoveryOk := mounted && settled.state = .healthy }
      ((mounted && settled.state = .healthy) = true) past₄ world₄ :=
    fun timed => (account₄ timed).of_eq rfl rfl rfl
  apply Attempt.bind (stampRead_accounts account₅ checked)
  exact fun past world result holds => holds.1

theorem attend_accounts {source : String} {item : Item}
    (account : Accounts cfg name record (item.state = .healthy) past world)
    (checked : item.state = .healthy → Checked cfg name past) :
    Attempt.Guarded system (Writes cfg name)
      (fun past world result => Accounts cfg name result.2 False past world)
      (fun _ _ _ => True) (attend cfg source name item record) past world := by
  have started : Accounts cfg name
      { record with failures := if item.state = .hung then record.failures + 1 else 0 }
      (Decidable.decide (item.state = .healthy) = true) past world := by
    intro timed
    apply Account.seen_mono _ decide_eq_true
    exact (account timed).of_eq rfl rfl rfl
  apply Attempt.bind (stampRead_accounts started fun ok => checked (of_decide_eq_true ok))
  rintro past₁ world₁ record₁ ⟨account₁, stamp, same⟩
  apply ask_bind.mpr
  intro now world₂ step₂
  have account₂ := (foreign_keeps _ _ .monotonic now world₂ trivial step₂ account₁).2
  refine ⟨fun status wrote => (by cases wrote), ?_⟩
  have read : world₂.clock = now := step₂.ticking.2
  generalize decided : decide _ _ _ _ _ = action
  have attempted (acts : action ≠ .none) : Attempt.Guarded system (Writes cfg name)
      (fun past world result => Accounts cfg name result.2 False past world)
      (fun _ _ _ => True) (attempt cfg source name action item record₁)
      (⟨world₁, .monotonic, now, world₂⟩ :: past₁) world₂ := by
    apply attempt_accounts account₂
    have rested := (decide_spec decided acts).2.1
    linarith
  cases action with
  | none => exact account₂
  | mount => exact attempted (by simp)
  | recover => exact attempted (by simp)

/-! ## Passes -/

/-- What is reported of the export, is its record. -/
theorem publish_accounts {exports : PerExport Report} {item : Item}
    (reported : exports.get name = report item record)
    (account : Accounts cfg name record False past world) :
    Attempt.Guarded system (Writes cfg name)
      (fun past world _ => Accounts cfg name record False past world) (fun _ _ _ => True)
      (publish cfg exports) past world := by
  apply ask_bind.mpr
  intro now world₁ step₁
  refine ⟨fun status wrote => (by cases wrote), ask_bind.mpr ?_⟩
  have account₁ := (foreign_keeps _ _ .time now world₁ trivial step₁ account).2
  intro answer world₂ step₂
  refine ⟨fun status wrote timed => ?_, ?_⟩
  · cases wrote
    refine ⟨⟨item, record, reported, account₁ timed⟩, List.mem_cons_self, ?_⟩
    have ordered : (now :: times past).Pairwise (· ≥ ·) := timed.ordered
    intro time member
    rcases List.mem_cons.mp member with rfl | member
    · exact le_rfl
    · exact (List.pairwise_cons.mp ordered).1 time member
  · have account₂ : Accounts cfg name record False
        (⟨world₁, .writeStatus statusFile ⟨now, exports⟩, answer, world₂⟩ ::
          ⟨world, .time, now, world₁⟩ :: past) world₂ := by
      intro timed
      have kept := account₁ timed.tail
      have own : (exports.get name).lastReadOk = record.lastReadOk := by
        rw [reported]
        rfl
      constructor
      · exact kept.attempts
      · exact kept.paced
      · exact kept.ticked
      · exact kept.stamped
      · intro readable
        rcases readable_cons.mp readable with readable | ⟨_, _, _, _, _, _, same, _⟩
        · exact kept.reads readable
        · cases same
      · exact fun stamped => (kept.checked stamped).later [_]
      · intro status member
        rcases List.mem_cons.mp member with rfl | member
        · exact own ▸ kept.stamped
        · exact kept.stamps status member
      · intro status member
        rcases List.mem_cons.mp member with rfl | member
        · exact own.le
        · exact kept.grows status member
    apply Attempt.bind (run_accounts elsewhere_publish account₂)
    intro past₃ world₃ published account₃
    have slept : (ask (.sleep 30)).Within (Foreign cfg name) := ask_within (.sleep 30) trivial
    exact foreign_accounts slept account₃

theorem react_accounts {history : PerExport Record} {exports : PerExport Item}
    (account : Accounts cfg name (history.get name) ((exports.get name).state = .healthy) past
      world)
    (checked : (exports.get name).state = .healthy → Checked cfg name past) :
    Attempt.Guarded system (Writes cfg name)
      (fun past world history => Accounts cfg name (history.get name) False past world)
      (fun _ _ _ => True) (react cfg history exports) past world := by
  have asked (ip : String) : Elsewhere cfg name (netcat ip) := elsewhere_netcat ip
  have sought : (sourceFor exports).Within (Foreign cfg name) := sourceFor_within asked exports
  apply Attempt.bind (foreign_checked sought account checked)
  rintro past₁ world₁ source ⟨account₁, checked₁⟩
  cases name with
  | srv =>
      apply Attempt.bind (attend_accounts account₁ checked₁)
      rintro past₂ world₂ ⟨srvItem, srv⟩ account₂
      apply Attempt.bind (foreign_accounts (attend_foreign (by decide) _ _ _) account₂)
      rintro past₃ world₃ ⟨generatedItem, generated⟩ account₃
      apply Attempt.bind (publish_accounts rfl account₃)
      exact fun past world _ holds => holds
  | generated =>
      apply Attempt.bind (foreign_checked (attend_foreign (by decide) _ _ _) account₁ checked₁)
      rintro past₂ world₂ ⟨srvItem, srv⟩ ⟨account₂, checked₂⟩
      apply Attempt.bind (attend_accounts account₂ checked₂)
      rintro past₃ world₃ ⟨generatedItem, generated⟩ account₃
      apply Attempt.bind (publish_accounts rfl account₃)
      exact fun past world _ holds => holds

theorem supervise_accounts {history : PerExport Record}
    (account : Accounts cfg name (history.get name) False past world) :
    Attempt.Guarded system (Writes cfg name)
      (fun past world history => Accounts cfg name (history.get name) False past world)
      (fun _ _ _ => True) (supervise cfg history) past world := by
  apply Attempt.bind (Attempt.recorded (inspect_accounts account))
  rintro past' world' exports ⟨account', moments, rfl, executed⟩
  apply react_accounts account'
  intro healthy
  refine ⟨[], moments.reverse, past, world, world', rfl, .inl ⟨exports, ?_, healthy⟩⟩
  rw [List.reverse_reverse]
  exact executed

/-- What is written in any run of the supervisor is what its records say. -/
theorem recorded_of_written (run : SupervisorRun cfg world)
    {earlier later : List (Moment interface World)} {moment : Moment interface World}
    (split : run.trace = earlier ++ moment :: later) {status : Status}
    (wrote : written moment.operation = some status) (timed : Timed run.trace.reverse) :
    Recorded cfg name earlier.reverse status := by
  have maintains : Maintains system (supervise cfg)
      (fun past history world => Accounts cfg name (history.get name) False past world)
      (Writes cfg name) := fun past history world account => supervise_accounts account
  have initially : Accounts cfg name (initialHistory.get name) False [] world := by
    intro _
    have initial : initialHistory.get name = .initial := by
      cases name <;> rfl
    rw [initial]
    constructor
    · rfl
    · norm_num [Record.initial]
    · exact .inl rfl
    · exact .inl rfl
    · rintro ⟨moment, member, _⟩
      cases member
    · exact fun stamped => absurd rfl stamped
    · exact fun status member => by cases member
    · exact fun status member => by cases member
  have before : Timed earlier.reverse := by
    rw [split, List.reverse_append] at timed
    exact timed.of_append
  exact run.good_of_trace maintains initially split status wrote before

end

end Homelab.NfsMount
