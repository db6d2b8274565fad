import Homelab.Foundation.Words
import Homelab.HostAlerts.Laws

/-! # Disk usage alerts

`disk-alert.sh` checks `/srv`, and the root file system where that is another device. For each
it remembers the last notification that was delivered.
-/

namespace Homelab.HostAlerts.Disk

open Text

structure Config where
  threshold : Int
  cooldownHours : Int

/-- What `df` and the clock say of a mount, and whether a notification would be delivered. There
is no usage where `df` prints no number. The clock is read again after the delivery. -/
structure Sample where
  now : Nat
  usage : Option Nat
  total : String
  used : String
  avail : String
  delivered : Bool
  recorded : Nat
  forward : now ≤ recorded

/-! ## The state file -/

/-- `$(awk '{print $N}' file)`, with the fields counted from zero. -/
def column (index : Nat) (text : String) : String :=
  substitute (printLines ((mapfile text).map fun line => (awkFields line).getD index ""))

def shouldNotify (cfg : Config) (now usage : Nat) (file : Option String) : Bool :=
  match file with
  | none => true
  | some text =>
      let ageHours := ((now : Int) - arith (column 0 text)).tdiv 3600
      decide (cfg.cooldownHours ≤ ageHours) || decide (5 ≤ (usage : Int) - arith (column 1 text))

def recordNotification (now usage : Nat) : String :=
  printLines [toString now ++ " " ++ toString usage]

def alert (mount : String) (usage : Nat) (sample : Sample) : Notice :=
  let urgent := 90 ≤ usage
  { title := "Disk " ++ toString usage ++ "% on " ++ mount
    priority := if urgent then "urgent" else "high"
    tags := (if urgent then "rotating_light" else "warning") ++ ",floppy_disk"
    body := "Used: " ++ sample.used ++ " / " ++ sample.total ++ " (" ++ sample.avail ++ " free)" }

/-- `check_disk`: what it sends, and what is left of the state file. -/
def checkDisk (cfg : Config) (mount : String) (sample : Sample) (file : Option String) :
    Option Notice × Option String :=
  match sample.usage with
  | none => (none, file)
  | some usage =>
      if usage < cfg.threshold then (none, file)
      else if !shouldNotify cfg sample.now usage file then (none, file)
      else
        (some (alert mount usage sample),
          if sample.delivered then some (recordNotification sample.recorded usage) else file)

/-! ## One mount -/

structure Turn where
  sample : Sample
  sent : Option Notice

def Turn.delivers (turn : Turn) : Bool := turn.sent.isSome && turn.sample.delivered

/-- The samples of a mount that starts without a state file, as the clock goes on. -/
inductive Runs (cfg : Config) (mount : String) : List Turn → Option String → Prop
  | start : Runs cfg mount [] none
  | next {turns file} (earlier : Runs cfg mount turns file) (sample : Sample)
      (later : ∀ turn ∈ turns.getLast?, turn.sample.recorded ≤ sample.now) :
      Runs cfg mount (turns ++ [⟨sample, (checkDisk cfg mount sample file).1⟩])
        (checkDisk cfg mount sample file).2

def lastDelivered (turns : List Turn) : Option Turn := (turns.filter Turn.delivers).getLast?

/-- The usage was delivered already: within the cooldown, and less than five points below. -/
def Known (cfg : Config) (turns : List Turn) (now usage : Nat) : Prop :=
  ∃ last level, lastDelivered turns = some last ∧ last.sample.usage = some level ∧
    (now : Int) < last.sample.recorded + 3600 * cfg.cooldownHours ∧ usage < level + 5

/-- What is sent of a mount is settled by its usage and by the last delivery. -/
structure Limited (cfg : Config) (turns : List Turn) : Prop where
  /-- A usage above the threshold is sent unless it is known. -/
  sends : ∀ before turn after, turns = before ++ turn :: after →
    (turn.sent.isSome = true ↔ ∃ usage : Nat, turn.sample.usage = some usage ∧
      cfg.threshold ≤ usage ∧ ¬Known cfg before turn.sample.now usage)
  /-- Deliveries within one cooldown are few. -/
  few : ∀ before during after, turns = before ++ during ++ after → ∀ most : Nat,
    (∀ turn ∈ during, ∀ usage, turn.sample.usage = some usage → usage ≤ most) →
    (∀ first ∈ during, ∀ second ∈ during,
      (second.sample.now : Int) < first.sample.recorded + 3600 * cfg.cooldownHours) →
    during.countP Turn.delivers ≠ 0 →
      5 * (during.countP Turn.delivers : Int) ≤ most - cfg.threshold + 5

/-! ## What the state file stands for -/

theorem columns_printed {first second : String} (solidFirst : first ≠ "")
    (solidSecond : second ≠ "") (spacelessFirst : Spaceless first)
    (spacelessSecond : Spaceless second) :
    column 0 (printLines [first ++ " " ++ second]) = first ∧
      column 1 (printLines [first ++ " " ++ second]) = second := by
  have single : ∀ line ∈ [first ++ " " ++ second], OneLine line := by
    intro line member newline
    rw [List.mem_singleton.mp member] at newline
    simp only [String.toList_append, List.mem_append] at newline
    have blank : '\n' ∉ " ".toList := by decide
    rcases newline with (inFirst | inBlank) | inSecond
    · exact spacelessFirst.oneLine inFirst
    · exact blank inBlank
    · exact spacelessSecond.oneLine inSecond
  have words : awkFields (first ++ " " ++ second) = [first, second] := by
    rw [awkFields_cons spacelessFirst solidFirst, awkFields_word spacelessSecond solidSecond]
  simp only [column, mapfile_printLines single, List.map_singleton, words]
  exact ⟨substitute_printLines spacelessFirst.oneLine,
    substitute_printLines spacelessSecond.oneLine⟩

theorem recorded_read (now usage : Nat) :
    arith (column 0 (recordNotification now usage)) = now ∧
      arith (column 1 (recordNotification now usage)) = usage := by
  have columns := columns_printed (toString_ne_empty now) (toString_ne_empty usage)
    (spaceless_toString now) (spaceless_toString usage)
  rw [recordNotification, columns.1, columns.2, arith, arith, parseInt_toString,
    parseInt_toString]
  exact ⟨rfl, rfl⟩

/-- The file is about the last delivery, which is past. -/
structure Stands (turns : List Turn) (file : Option String) : Prop where
  held : (lastDelivered turns = none ∧ file = none) ∨
    ∃ last usage, lastDelivered turns = some last ∧ last.sample.usage = some usage ∧
      file = some (recordNotification last.sample.recorded usage)
  past : ∀ now, (∀ turn ∈ turns.getLast?, turn.sample.recorded ≤ now) →
    ∀ last, lastDelivered turns = some last → last.sample.recorded ≤ now

section

variable {cfg : Config} {mount : String} {turns : List Turn} {turn : Turn} {sample : Sample}
  {file : Option String}

theorem lastDelivered_append_singleton :
    lastDelivered (turns ++ [turn]) =
      if turn.delivers then some turn else lastDelivered turns := by
  cases delivers : turn.delivers <;> simp [lastDelivered, List.filter_append, delivers]

theorem shouldNotify_iff (stands : Stands turns file)
    (later : ∀ turn ∈ turns.getLast?, turn.sample.recorded ≤ sample.now) (usage : Nat) :
    shouldNotify cfg sample.now usage file = true ↔ ¬Known cfg turns sample.now usage := by
  rcases stands.held with ⟨nothing, rfl⟩ | ⟨last, level, latest, said, rfl⟩
  · simp [shouldNotify, Known, nothing]
  · have forward := stands.past _ later last latest
    have read := recorded_read last.sample.recorded level
    simp only [shouldNotify, read.1, read.2, Bool.or_eq_true, decide_eq_true_eq,
      hours_le_iff forward]
    constructor
    · rintro due ⟨other, level', latest', said', early, close⟩
      rw [latest, Option.some.injEq] at latest'
      subst latest'
      rw [said, Option.some.injEq] at said'
      subst said'
      omega
    · intro unknown
      by_contra still
      exact unknown ⟨last, level, latest, said, by omega, by omega⟩

theorem checkDisk_sends (stands : Stands turns file)
    (later : ∀ turn ∈ turns.getLast?, turn.sample.recorded ≤ sample.now) :
    (checkDisk cfg mount sample file).1.isSome = true ↔
      ∃ usage : Nat, sample.usage = some usage ∧ cfg.threshold ≤ usage ∧
        ¬Known cfg turns sample.now usage := by
  rw [checkDisk]
  cases measured : sample.usage with
  | none => simp
  | some usage =>
      have notify : shouldNotify cfg sample.now usage file = true ↔
          ¬Known cfg turns sample.now usage := shouldNotify_iff stands later usage
      simp only [Option.some.injEq, exists_eq_left', ← notify]
      split
      · next below => simp [below]
      · next above =>
          split
          · next silent => simp_all
          · next loud => simp_all

/-- The state file is written exactly when a notification is delivered. -/
theorem checkDisk_records (cfg : Config) (mount : String) (sample : Sample)
    (file : Option String) :
    (((checkDisk cfg mount sample file).1.isSome && sample.delivered) = false ∧
        (checkDisk cfg mount sample file).2 = file) ∨
      ∃ usage : Nat, sample.usage = some usage ∧
        ((checkDisk cfg mount sample file).1.isSome && sample.delivered) = true ∧
        (checkDisk cfg mount sample file).2 =
          some (recordNotification sample.recorded usage) := by
  rw [checkDisk]
  cases sample.usage with
  | none => exact .inl ⟨rfl, rfl⟩
  | some usage =>
      simp only
      split
      · exact .inl ⟨rfl, rfl⟩
      · split
        · exact .inl ⟨rfl, rfl⟩
        · cases delivered : sample.delivered with
          | false => exact .inl ⟨rfl, rfl⟩
          | true => exact .inr ⟨usage, rfl, rfl, rfl⟩

theorem checkDisk_stands (stands : Stands turns file)
    (later : ∀ turn ∈ turns.getLast?, turn.sample.recorded ≤ sample.now) :
    Stands (turns ++ [⟨sample, (checkDisk cfg mount sample file).1⟩])
      (checkDisk cfg mount sample file).2 := by
  have past := stands.past _ later
  rcases checkDisk_records cfg mount sample file with ⟨unsent, same⟩ |
    ⟨usage, measured, delivers, written⟩
  · have latest : lastDelivered (turns ++ [⟨sample, (checkDisk cfg mount sample file).1⟩]) =
        lastDelivered turns := by
      rw [lastDelivered_append_singleton, Turn.delivers, unsent]
      rfl
    constructor
    · rw [latest, same]
      exact stands.held
    · intro now last earlier found
      rw [latest] at found
      have ended := last ⟨sample, (checkDisk cfg mount sample file).1⟩ (by simp)
      exact (past earlier found).trans (sample.forward.trans ended)
  · have latest : lastDelivered (turns ++ [⟨sample, (checkDisk cfg mount sample file).1⟩]) =
        some ⟨sample, (checkDisk cfg mount sample file).1⟩ := by
      rw [lastDelivered_append_singleton, Turn.delivers, delivers]
      rfl
    constructor
    · exact .inr ⟨_, usage, latest, measured, written⟩
    · intro now last found equal
      rw [latest, Option.some.injEq] at equal
      rw [← equal]
      exact last ⟨sample, (checkDisk cfg mount sample file).1⟩ (by simp)

theorem runs_stand (runs : Runs cfg mount turns file) : Stands turns file := by
  induction runs with
  | start => exact ⟨.inl ⟨rfl, rfl⟩, by simp [lastDelivered]⟩
  | next earlier sample later induction => exact checkDisk_stands induction later

theorem runs_send (runs : Runs cfg mount turns file) {before after : List Turn}
    (split : turns = before ++ turn :: after) :
    turn.sent.isSome = true ↔ ∃ usage : Nat, turn.sample.usage = some usage ∧
      cfg.threshold ≤ usage ∧ ¬Known cfg before turn.sample.now usage := by
  induction runs generalizing after with
  | start => simp at split
  | next earlier sample later induction =>
      rcases snoc_split split with ⟨_, rfl, rfl⟩ | ⟨inner, _, inside⟩
      · exact checkDisk_sends (runs_stand earlier) later
      · exact induction inside

theorem runs_climb (runs : Runs cfg mount turns file) {before during after : List Turn}
    (split : turns = before ++ during ++ after)
    (close : ∀ first ∈ during, ∀ second ∈ during,
      (second.sample.now : Int) < first.sample.recorded + 3600 * cfg.cooldownHours) :
    during.countP Turn.delivers = 0 ∨ ∃ last ∈ during, ∃ level : Nat,
      lastDelivered (before ++ during) = some last ∧ last.sample.usage = some level ∧
        cfg.threshold + 5 * ((during.countP Turn.delivers : Int) - 1) ≤ level := by
  induction during using List.reverseRecOn generalizing after with
  | nil => exact .inl rfl
  | append_singleton earlier turn induction =>
      have inside : turns = (before ++ earlier) ++ turn :: after := by simpa using split
      have known := induction (by simpa using inside)
        fun first member second other => close first (by simp [member]) second (by simp [other])
      have sends := runs_send runs inside
      rw [List.countP_append, List.countP_singleton, ← List.append_assoc,
        lastDelivered_append_singleton]
      cases delivers : turn.delivers with
      | false =>
          rcases known with none | ⟨last, member, level, latest, said, climbed⟩
          · exact .inl (by simpa using none)
          · exact .inr ⟨last, by simp [member], level, by simpa using latest, said,
              by simpa using climbed⟩
      | true =>
          rw [Turn.delivers, Bool.and_eq_true] at delivers
          rcases sends.mp delivers.1 with ⟨usage, measured, above, unknown⟩
          refine .inr ⟨turn, by simp, usage, by simp, measured, ?_⟩
          rcases known with none | ⟨last, member, level, latest, said, climbed⟩
          · simp only [none]
            simpa using above
          · have early := close last (by simp [member]) turn (by simp)
            have steep : ¬usage < level + 5 := fun near =>
              unknown ⟨last, level, latest, said, early, near⟩
            push_cast
            simp only [if_true]
            omega

/-- What a mount is notified of, whatever its usage does and whatever gets through. -/
theorem runs_limited (runs : Runs cfg mount turns file) : Limited cfg turns where
  sends := fun _ _ _ split => runs_send runs split
  few := by
    intro before during after split most bounded close some_
    rcases runs_climb runs split close with none | ⟨last, member, level, _, said, climbed⟩
    · exact absurd none some_
    · have top := bounded last member level said
      omega

end

/-! ## The script -/

/-- What one run finds. The devices are what `df` prints of them, and the root file system is
checked after `/srv`. -/
structure Run where
  srv : Sample
  srvDev : String
  rootDev : String
  root : Sample
  ordered : srv.recorded ≤ root.now

structure StateFiles where
  srv : Option String
  root : Option String

structure Record where
  run : Run
  srv : Option Notice
  root : Option Notice

def script (cfg : Config) (run : Run) (files : StateFiles) : Record × StateFiles :=
  let srv := checkDisk cfg "/srv" run.srv files.srv
  let root := if run.srvDev ≠ run.rootDev then checkDisk cfg "/" run.root files.root
    else (none, files.root)
  (⟨run, srv.1, root.1⟩, ⟨srv.2, root.2⟩)

/-- Runs one after the other, as the clock goes on. There are no state files at first. -/
inductive History (cfg : Config) : List Record → StateFiles → Prop
  | start : History cfg [] ⟨none, none⟩
  | next {records files} (earlier : History cfg records files) (run : Run)
      (later : ∀ record ∈ records.getLast?, record.run.root.recorded ≤ run.srv.now) :
      History cfg (records ++ [(script cfg run files).1]) (script cfg run files).2

def srvTurns (records : List Record) : List Turn :=
  records.map fun record => ⟨record.run.srv, record.srv⟩

/-- The checks of the root file system, in the runs that find it on a device of its own. -/
def rootTurns (records : List Record) : List Turn :=
  (records.filter fun record => record.run.srvDev ≠ record.run.rootDev).map fun record =>
    ⟨record.run.root, record.root⟩

section

variable {cfg : Config} {records : List Record} {files : StateFiles}

structure Sampled (cfg : Config) (records : List Record) (files : StateFiles) : Prop where
  srv : Runs cfg "/srv" (srvTurns records) files.srv
  root : Runs cfg "/" (rootTurns records) files.root
  past : ∀ now, (∀ record ∈ records.getLast?, record.run.root.recorded ≤ now) →
    (∀ turn ∈ (srvTurns records).getLast?, turn.sample.recorded ≤ now) ∧
      ∀ turn ∈ (rootTurns records).getLast?, turn.sample.recorded ≤ now

theorem history_sampled (history : History cfg records files) : Sampled cfg records files := by
  induction history with
  | start => exact ⟨.start, .start, by simp [srvTurns, rootTurns]⟩
  | @next records files earlier run later induction =>
      have past := induction.past run.srv.now later
      have step : run.srv.now ≤ run.root.now := run.srv.forward.trans run.ordered
      have srv := induction.srv.next run.srv past.1
      have record (now : Nat) (last : ∀ record ∈ (records ++ [(script cfg run files).1]).getLast?,
          record.run.root.recorded ≤ now) : run.root.recorded ≤ now :=
        last (script cfg run files).1 (by simp)
      by_cases apart : run.srvDev ≠ run.rootDev
      · have root := induction.root.next run.root fun turn member =>
          (past.2 turn member).trans step
        refine ⟨?_, ?_, fun now last => ?_⟩
        · simpa [srvTurns, script] using srv
        · simpa [rootTurns, script, apart] using root
        · have ended := record now last
          have before := run.ordered.trans (run.root.forward.trans ended)
          simp [srvTurns, rootTurns, script, apart, before, ended]
      · refine ⟨?_, ?_, fun now last => ?_⟩
        · simpa [srvTurns, script] using srv
        · simpa [rootTurns, script, apart] using induction.root
        · have ended := record now last
          have before := run.ordered.trans (run.root.forward.trans ended)
          have rest := (induction.past now fun other member =>
            (later other member).trans (step.trans (run.root.forward.trans ended))).2
          refine ⟨by simp [srvTurns, script, before], ?_⟩
          simpa [rootTurns, script, apart] using rest

theorem script_oneDevice {run : Run} (same : run.srvDev = run.rootDev) :
    (script cfg run files).1.root = none := by
  rw [script, if_neg (not_not.mpr same)]

theorem history_oneDevice (history : History cfg records files) :
    ∀ record ∈ records, record.run.srvDev = record.run.rootDev → record.root = none := by
  induction history with
  | start => simp
  | next earlier run later induction =>
      intro record member same
      rcases List.mem_append.mp member with before | last
      · exact induction record before same
      · rw [List.mem_singleton.mp last] at same ⊢
        exact script_oneDevice same

end

/-- Each mount is notified of by itself, by its own usage and its own last delivery. A run with
one device says nothing of the root file system. -/
theorem disk_limited {cfg : Config} {records : List Record} {files : StateFiles}
    (history : History cfg records files) :
    Limited cfg (srvTurns records) ∧ Limited cfg (rootTurns records) ∧
      ∀ record ∈ records, record.run.srvDev = record.run.rootDev → record.root = none :=
  have sampled := history_sampled history
  ⟨runs_limited sampled.srv, runs_limited sampled.root, history_oneDevice history⟩

/-- `/srv` at 80 per cent, on the only device. -/
def pilotSample (now : Nat) (delivered : Bool) : Sample :=
  ⟨now, some 80, "1.8T", "1.5T", "300G", delivered, now, le_rfl⟩

def pilotRun (now : Nat) (delivered : Bool) : Run :=
  ⟨pilotSample now delivered, "/dev/sda1", "/dev/sda1", pilotSample now delivered, le_rfl⟩

/-- A notification that does not get through is sent again an hour later, and then it is
known. -/
theorem disk_limited_retried : ∃ records files, History ⟨75, 24⟩ records files ∧
    (srvTurns records).map (fun turn => turn.sent.isSome) = [true, true, false] ∧
    Limited ⟨75, 24⟩ (srvTurns records) ∧ ∀ record ∈ records, record.root = none := by
  have first : History ⟨75, 24⟩ _ _ := History.start.next (pilotRun 0 false) (by simp)
  have second := first.next (pilotRun 3600 true) (by simp [script, pilotRun, pilotSample])
  have third := second.next (pilotRun 7200 true) (by simp [script, pilotRun, pilotSample])
  have laws := disk_limited third
  refine ⟨_, _, third, by decide +kernel, laws.1, fun record member => laws.2.2 record member ?_⟩
  simp only [List.nil_append, List.mem_append, List.mem_singleton] at member
  rcases member with (rfl | rfl) | rfl <;> rfl

end Homelab.HostAlerts.Disk
