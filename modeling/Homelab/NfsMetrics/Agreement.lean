import Homelab.NfsMetrics.Truth
import Homelab.NfsMount.Account

/-! # What the supervisor writes and the collector reads

Every status that the supervisor of the Mac writes is a valid report to the collector on the
Pi, from its time on, and the metrics say what the supervisor did and saw.
-/

namespace Homelab.NfsMetrics

open Effects Text Python Checklist
open NfsMount (Export Health Status SupervisorRun World interface Timed Checked attempts statuses
  written)

/-! ## The status as an object -/

def nameOf : Export → String
  | .srv => "srv"
  | .generated => "generated"

/-- The item of an export, which `update` adds the record to. -/
def itemValue (report : NfsMount.Report) : List (String × Value) :=
  [("state", .str report.item.state.text), ("reason", .str report.item.reason),
    ("source", .str report.item.source), ("recoveries", .int report.recoveries),
    ("recovery_ok", ofFlag report.recoveryOk), ("last_read_ok", .int report.lastReadOk)]

def statusFields (status : Status) : List (String × Value) :=
  [("schema", .int 1), ("checked_at", .int status.checkedAt),
    ("exports", .dict [(nameOf .srv, .dict (itemValue status.exports.srv)),
      (nameOf .generated, .dict (itemValue status.exports.generated))])]

theorem itemOf_status (status : Status) (name : Export) :
    itemOf (.dict (statusFields status)) (nameOf name) =
      .dict (itemValue (status.exports.get name)) := by
  cases name <;> rfl

theorem mem_exports {name : String} (member : name ∈ exports) : ∃ own, name = nameOf own := by
  simp only [exports, List.mem_cons, List.not_mem_nil, or_false] at member
  rcases member with rfl | rfl
  · exact ⟨.srv, rfl⟩
  · exact ⟨.generated, rfl⟩

/-! ## Numbers -/

theorem counts_int {number : Int} (positive : 0 ≤ number) : Counts (.int number) number :=
  ⟨.inr ⟨number, rfl, rfl⟩, by exact_mod_cast positive⟩

theorem not_huge {number : Int} (small : ∃ double, Double.nearest number = some double) :
    ¬ Huge (.int number) := by
  rintro ⟨own, same, large⟩
  cases same
  rcases small with ⟨double, near⟩
  rw [near] at large
  cases large

/-- The numbers of a status are no larger than doubles, and none is later than its time. -/
structure Sound (status : Status) : Prop where
  positive : 0 < status.checkedAt
  double : ∃ double, Double.nearest status.checkedAt = some double
  reads : ∀ name, 0 ≤ (status.exports.get name).lastReadOk ∧
    (status.exports.get name).lastReadOk ≤ status.checkedAt ∧
    ∃ double, Double.nearest (status.exports.get name).lastReadOk = some double
  recoveries : ∀ name, ∃ double,
    Double.nearest ((status.exports.get name).recoveries : ℤ) = some double

theorem get_read (report : NfsMount.Report) :
    get (itemValue report) "last_read_ok" = .int report.lastReadOk := rfl

theorem get_recoveries (report : NfsMount.Report) :
    get (itemValue report) "recoveries" = .int (report.recoveries : ℤ) := rfl

theorem get_flag (report : NfsMount.Report) :
    get (itemValue report) "recovery_ok" = ofFlag report.recoveryOk := rfl

theorem text_mem_states (state : Health) : state.text ∈ states := by
  cases state <;> decide

theorem counts_flag (flag : Bool) : Counts (ofFlag flag) (if flag then 1 else 0) := by
  cases flag with
  | false => exact ⟨.inr ⟨0, rfl, by simp⟩, by simp⟩
  | true => exact ⟨.inr ⟨1, rfl, by simp⟩, by simp⟩

section

variable {status : Status} (sound : Sound status)

include sound

theorem exportFits_of_sound (name : Export) :
    ExportFits status.checkedAt (itemValue (status.exports.get name)) := by
  rcases sound.reads name with ⟨positive, early, _⟩
  have read := counts_int positive
  have recoveries : Counts (.int ((status.exports.get name).recoveries : ℤ)) _ :=
    counts_int (Int.natCast_nonneg _)
  have flag := counts_flag (status.exports.get name).recoveryOk
  constructor
  · exact ⟨_, text_mem_states _, rfl⟩
  · intro field member
    simp only [numberFields, List.mem_cons, List.not_mem_nil, or_false] at member
    rcases member with rfl | rfl | rfl
    · exact ⟨_, read⟩
    · exact ⟨_, recoveries⟩
    · exact ⟨_, flag⟩
  · intro number counts
    rw [get_read] at counts
    rw [counts.unique read]
    exact_mod_cast early
  · intro number counts
    rw [get_flag] at counts
    rw [counts.unique flag]
    split
    · exact .inr rfl
    · exact .inl rfl

theorem fits_of_sound {now : Int} (late : status.checkedAt ≤ now) :
    Fits now (statusFields status) status.checkedAt where
  schema := by
    have one : get (statusFields status) "schema" = .int 1 := rfl
    rw [one, amount, Int.cast_one]
  time := counts_int sound.positive.le
  past := by exact_mod_cast late
  positive := by exact_mod_cast sound.positive.ne'
  exports := by
    refine ⟨_, rfl, fun name member => ?_⟩
    rcases mem_exports member with ⟨own, rfl⟩
    have fits := exportFits_of_sound sound own
    cases own with
    | srv => exact ⟨_, rfl, fits⟩
    | generated => exact ⟨_, rfl, fits⟩

theorem export_whole (name : Export) :
    ¬ ExportBreaks (.dict (itemValue (status.exports.get name))) := by
  rintro ⟨item, same, _, broken⟩
  cases same
  have flag : ¬ Huge (ofFlag (status.exports.get name).recoveryOk) := by
    cases (status.exports.get name).recoveryOk with
    | false => exact not_huge ⟨0, rfl⟩
    | true => exact not_huge ⟨1, by decide +kernel⟩
  simp only [numberFields, FirstBreaks, get_read, get_recoveries, get_flag, and_false,
    or_false] at broken
  rcases broken with huge | ⟨_, huge | ⟨_, huge⟩⟩
  · exact not_huge (sound.reads name).2.2 huge
  · exact not_huge (sound.recoveries name) huge
  · exact flag huge

/-- No number of a status makes the collector raise, at any time. -/
theorem whole_of_sound (now : Int) : ¬ Breaks now (.dict (statusFields status)) := by
  rintro ⟨fields, same, _, broken⟩
  cases same
  rcases broken with huge | ⟨checked, _, _, _, items, found, broken⟩
  · exact not_huge sound.double huge
  · cases found
    rcases broken with broken | ⟨_, broken | ⟨_, impossible⟩⟩
    · exact export_whole sound .srv broken
    · exact export_whole sound .generated broken
    · exact impossible

end

/-! ## Runs -/

section

variable {cfg : NfsMount.Config} {past : Past interface World} {status : Status}

theorem sound_of_recorded (recorded : ∀ name, NfsMount.Recorded cfg name past status)
    (timed : Timed past) : Sound status := by
  have now := (recorded .srv).now
  refine ⟨timed.positive _ now, timed.double _ now, fun name => ?_, fun name => ?_⟩
  · rcases (recorded name).report with ⟨item, record, same, account⟩
    have own : (status.exports.get name).lastReadOk = record.lastReadOk := by
      rw [same]
      rfl
    rw [own]
    rcases account.stamped with zero | stamped
    · rw [zero]
      exact ⟨le_rfl, (timed.positive _ now).le, 0, rfl⟩
    · exact ⟨(timed.positive _ stamped).le, (recorded name).latest _ stamped,
        timed.double _ stamped⟩
  · rcases (recorded name).report with ⟨item, record, same, account⟩
    have own : (status.exports.get name).recoveries = record.recoveries := by
      rw [same]
      rfl
    rw [own]
    -- Each attempt comes 300 s after the one before, on a clock that counts in doubles.
    have paced := account.paced
    have early : record.attemptAt < 2 ^ 1024 := by
      rcases account.ticked with never | ticked
      · rw [never]
        exact (by norm_num : (-300 : ℚ) < 0).trans (by positivity)
      · exact timed.ticks _ ticked
    have double : (2 : ℚ) ^ 1024 = 2 ^ 1023 + 2 ^ 1023 := by
      rw [pow_succ, mul_two]
    have unit : (300 : ℚ) < 2 ^ 1023 :=
      (by norm_num : (300 : ℚ) < 2 ^ 9).trans (pow_lt_pow_right₀ (by norm_num) (by norm_num))
    rw [double] at early
    apply Double.nearest_of_le
    · exact_mod_cast Nat.zero_le _
    · push_cast
      generalize (2 : ℚ) ^ 1023 = half at early unit ⊢
      linarith

/-- What a status says, and what the collector makes of it, agree with what happened before it
was written. -/
structure Agrees (cfg : NfsMount.Config) (past : Past interface World) (status : Status) :
    Prop where
  accepted : ∀ now, status.checkedAt ≤ now →
    validStatus (.dict (statusFields status)) now = .ok true
  rendered : ∀ clock : Clock, status.checkedAt ≤ clock.now → ∃ page : Page,
    metrics (.dict (statusFields status)) clock.now = .ok page.metrics ∧ page.valid = true ∧
      ∀ name, (page.reads (nameOf name) = true ↔
          (status.exports.get name).item.state = .healthy ∧ clock.now - status.checkedAt ≤ 600) ∧
        page.recoveries (nameOf name) = .int (attempts name past) ∧
        page.lastRead (nameOf name) = .int (status.exports.get name).lastReadOk
  early : ∀ now, now < status.checkedAt →
    metrics (.dict (statusFields status)) now = .ok (Page.blank now).metrics
  read : ∀ name, (status.exports.get name).lastReadOk ≠ 0 ↔ Checked cfg name past
  grows : ∀ name, ∀ earlier ∈ statuses past,
    (earlier.exports.get name).lastReadOk ≤ (status.exports.get name).lastReadOk

theorem agrees_of_recorded (recorded : ∀ name, NfsMount.Recorded cfg name past status)
    (timed : Timed past) : Agrees cfg past status := by
  have sound := sound_of_recorded recorded timed
  constructor
  · intro now late
    exact (validStatus_decides _ _).yes (whole_of_sound sound now)
      ⟨_, _, rfl, fits_of_sound sound late⟩
  · intro clock late
    have fits := fits_of_sound sound late
    refine ⟨_, metrics_of_valid fits (whole_of_sound sound _), rfl, fun name => ⟨?_, ?_, ?_⟩⟩
    · have member : nameOf name ∈ exports := by
        cases name <;> simp [nameOf, exports]
      have whole : ¬ Rounds clock.now (field (.dict (statusFields status)) "checked_at")
          status.checkedAt := by
        rintro ⟨impossible, _⟩
        cases impossible
      have state : field (itemOf (.dict (statusFields status)) (nameOf name)) "state" =
          .str (status.exports.get name).item.state.text := by
        rw [itemOf_status]
        rfl
      have text : (status.exports.get name).item.state.text = "healthy" ↔
          (status.exports.get name).item.state = .healthy := by
        cases (status.exports.get name).item.state <;> simp [Health.text]
      rw [reads_report fits member, Healthy, state, Value.str.injEq, text, or_iff_left whole]
      constructor
      · rintro ⟨⟨_, healthy⟩, young⟩
        exact ⟨healthy, by exact_mod_cast young⟩
      · rintro ⟨healthy, young⟩
        exact ⟨⟨⟨_, rfl, fits⟩, healthy⟩, by exact_mod_cast young⟩
    · rcases (recorded name).report with ⟨item, record, same, account⟩
      have own : (status.exports.get name).recoveries = attempts name past := by
        rw [same]
        exact account.attempts
      change field (itemOf (.dict (statusFields status)) (nameOf name)) "recoveries" = _
      rw [itemOf_status, ← own]
      rfl
    · change field (itemOf (.dict (statusFields status)) (nameOf name)) "last_read_ok" = _
      rw [itemOf_status]
      rfl
  · intro now early
    apply metrics_of_invalid (whole_of_sound sound now)
    rintro ⟨fields, checked, same, fits⟩
    cases same
    have time : checked = status.checkedAt := fits.time.unique (counts_int sound.positive.le)
    have past := fits.past
    rw [time] at past
    have late : status.checkedAt ≤ now := by exact_mod_cast past
    omega
  · intro name
    rcases (recorded name).report with ⟨item, record, same, account⟩
    rw [same]
    constructor
    · exact account.checked
    · intro checked
      exact (account.reads checked.readable).resolve_right id
  · intro name earlier member
    rcases (recorded name).report with ⟨item, record, same, account⟩
    rw [same]
    exact account.grows earlier member

end

/-- Every status that the supervisor writes, in any run on clocks that are right, is a valid
report to the collector from its time on, and agrees with what happened. -/
theorem status_agrees {cfg : NfsMount.Config} {world : World} (run : SupervisorRun cfg world)
    (timed : Timed run.trace.reverse) {earlier later : List (Moment interface World)}
    {moment : Moment interface World} (split : run.trace = earlier ++ moment :: later)
    {status : Status} (wrote : written moment.operation = some status) :
    Agrees cfg earlier.reverse status := by
  apply agrees_of_recorded
  · intro name
    exact NfsMount.recorded_of_written run split wrote timed
  · rw [split, List.reverse_append] at timed
    exact timed.of_append

/-- Both exports are mounted and read. -/
def healthyScript : NfsMount.Script := fun command =>
  NfsMount.exits 0 (
    if command = NfsMount.mountList then
      "192.0.2.100:/srv on /Volumes/homelab-srv (nfs)\n" ++
        "192.0.2.100:/shared on /Volumes/homelab-generated (nfs)"
    else if command = NfsMount.nfsstat then
      "/Volumes/homelab-srv from 192.0.2.100:/srv\n  Status flags: 0x0\n" ++
        "/Volumes/homelab-generated from 192.0.2.100:/shared\n  Status flags: 0x0"
    else "")

def healthyRun : SupervisorRun NfsMount.pilotConfig NfsMount.pilotWorld :=
  NfsMount.follow .begin healthyScript

theorem status_agrees_healthy : ∃ earlier status, status.checkedAt = 1700000000 ∧
    status.exports.srv.item.state = .healthy ∧
    Agrees NfsMount.pilotConfig earlier status := by
  have ⟨wrote, wall, tick, sorted⟩ : (∃ moment ∈ healthyRun.trace,
      ((written moment.operation).any fun status =>
        status.checkedAt = 1700000000 && status.exports.srv.item.state = .healthy) = true) ∧
      (∀ now ∈ NfsMount.times healthyRun.trace.reverse, now = 1700000000) ∧
      (∀ now ∈ NfsMount.ticks healthyRun.trace.reverse, now = 0) ∧
      (NfsMount.times healthyRun.trace.reverse).Pairwise (· ≥ ·) := by
    decide +kernel
  have timed : Timed healthyRun.trace.reverse := by
    constructor
    · intro now member
      rw [wall now member]
      decide
    · exact sorted
    · intro now member
      rw [wall now member]
      exact ⟨1700000000, by decide +kernel⟩
    · intro now member
      rw [tick now member]
      positivity
  rcases wrote with ⟨moment, member, found⟩
  rcases List.append_of_mem member with ⟨earlier, later, split⟩
  cases wrote : written moment.operation with
  | none =>
      rw [wrote] at found
      cases found
  | some status =>
      rw [wrote, Option.any_some, Bool.and_eq_true, decide_eq_true_eq, decide_eq_true_eq] at found
      exact ⟨_, status, found.1, found.2, status_agrees healthyRun timed split wrote⟩

end Homelab.NfsMetrics
