import Homelab.NfsMetrics.Report

/-! # What the collector says of a file

Whatever the file holds, the same samples are to be printed, and they are to say no more
than the file does. They do unless the interpreter gives up on the text, a number that is
checked is too large for a double, or the age of a report is rounded.
-/

namespace Homelab.NfsMetrics

open Text Python Checklist

/-- The time of a clock that counts in doubles, in whole seconds. -/
structure Clock where
  now : Int
  exact : Double.nearest now = some (now : ℚ)

example : Clock := ⟨1790000000, by decide +kernel⟩

/-! ## Pages -/

structure Page where
  time : Int
  valid : Bool
  checked : Value
  reads : String → Bool
  lastRead : String → Value
  recoveries : String → Value
  recoveryOk : String → Value

def perExport (name help : String) (number : String → Value) : Metric :=
  ⟨name, help, exports.map fun own => (label own, number own)⟩

def Page.metrics (page : Page) : List Metric :=
  [⟨"mac_nfs_collector_timestamp_seconds", "Last Pi collector run.", [("", .int page.time)]⟩,
    ⟨"mac_nfs_status_valid", "Mac report contains all required fields.",
      [("", ofFlag page.valid)]⟩,
    ⟨"mac_nfs_check_timestamp_seconds", "Last native Mac NFS read check.",
      [("", page.checked)]⟩,
    perExport "mac_nfs_read_ok"
      "Current bounded reads succeeded and report is at most 10 minutes old."
      fun name => ofFlag (page.reads name),
    perExport "mac_nfs_last_read_success_timestamp_seconds" "Last successful bounded read."
      page.lastRead,
    perExport "mac_nfs_recovery_attempts" "Recovery attempts since daemon start."
      page.recoveries,
    perExport "mac_nfs_last_recovery_ok" "Last recovery passed a bounded read check."
      page.recoveryOk]

def Page.blank (now : Int) : Page where
  time := now
  valid := false
  checked := .int 0
  reads _ := false
  lastRead _ := .int 0
  recoveries _ := .int 0
  recoveryOk _ := .int 0

def answer : Except Raised Bool → Bool
  | .ok value => value
  | .error _ => false

/-- `item[name]`, of what may be no item. -/
def field (item : Value) (name : String) : Value :=
  match item with
  | .dict fields => get fields name
  | _ => .none

def Page.report (now : Int) (value : Value) : Page where
  time := now
  valid := true
  checked := field value "checked_at"
  reads name :=
    answer (readOk now (field value "checked_at") (field (field value "exports") name))
  lastRead name := field (field (field value "exports") name) "last_read_ok"
  recoveries name := field (field (field value "exports") name) "recoveries"
  recoveryOk name := field (field (field value "exports") name) "recovery_ok"

theorem metrics_of_breaks {value : Value} {now : Int} (breaks : Breaks now value) :
    ∃ raised, metrics value now = .error raised := by
  rcases (validStatus_decides value now).raises breaks with ⟨raised, failed⟩
  rw [metrics, failed]
  exact ⟨raised, rfl⟩

theorem metrics_of_invalid {value : Value} {now : Int} (whole : ¬ Breaks now value)
    (wrong : ¬ Valid now value) : metrics value now = .ok (Page.blank now).metrics := by
  rw [metrics, (validStatus_decides value now).no whole wrong]
  rfl

/-! ## Ages -/

/-- The age of a report is more than 600 seconds, and rounded to that. -/
def Rounds (now : Int) (checked : Value) (time : ℚ) : Prop :=
  checked = .float (.finite time) ∧ 600 < now - time ∧ (now : ℚ) - time ≤ 600 + 1 / 2 ^ 44

theorem nearestPositive_le_600 {number : ℚ} (positive : 0 < number) :
    Double.nearestPositive number ≤ 600 ↔ number ≤ 600 + 1 / 2 ^ 44 := by
  have small {bound : ℚ} (le : Double.nearestPositive number ≤ bound) (less : bound ≤ 600)
      (own : number ≤ 600) : Double.nearestPositive number ≤ 600 ↔ number ≤ 600 + 1 / 2 ^ 44 := by
    constructor
    · intro
      linarith
    · intro
      exact le.trans less
  rcases lt_or_ge number 1 with tiny | large
  · exact small (Double.nearestPositive_le positive) (by linarith) (by linarith)
  rcases lt_or_ge number 512 with less | more
  · have near :=
      (Double.nearestPositive_close (by omega : (-1022 : ℤ) ≤ 0) (by simpa using large)).2
    exact small near (by linarith) (by linarith)
  · have rounded := Double.nearestPositive_le_iff (by omega : (-1022 : ℤ) ≤ 9)
      (by omega : (600 * 2 ^ 43 : ℤ) % 2 = 0) (by omega) (by norm_num; exact more)
    have bound : ((600 * 2 ^ 43 : ℤ) : ℚ) * 2 ^ ((9 : ℤ) - 52) = 600 := by
      norm_num
    have half : (((600 * 2 ^ 43 : ℤ) : ℚ) + 1 / 2) * 2 ^ ((9 : ℤ) - 52) = 600 + 1 / 2 ^ 44 := by
      norm_num
    rwa [bound, half] at rounded

theorem floatOf_le_iff {number : ℚ} (positive : 0 ≤ number) :
    atMost (.float (Json.floatOf number)) 600 = .ok (decide (number ≤ 600 + 1 / 2 ^ 44)) := by
  rcases positive.eq_or_lt with rfl | positive
  · have zero : (0 : ℚ) ≤ 600 + 1 / 2 ^ 44 := by positivity
    rw [Json.floatOf, Double.nearest, if_pos rfl, decide_eq_true zero]
    rfl
  rw [Json.floatOf, Double.nearest_positive positive]
  have same := nearestPositive_le_600 positive
  split
  · next number found =>
      split at found
      · cases found
      · cases found
        exact congrArg Except.ok (decide_eq_decide.mpr same)
  · next found =>
      split at found
      · next huge =>
          have less : (600 : ℚ) < 2 ^ 1024 :=
            (by norm_num : (600 : ℚ) < 2 ^ 10).trans
              (pow_lt_pow_right₀ (by norm_num) (by norm_num))
          have old : ¬ number ≤ 600 + 1 / 2 ^ 44 := by
            rw [← same]
            exact not_le.mpr (less.trans_le huge)
          rw [decide_eq_false old, decide_eq_false (not_lt.mpr positive.le)]
          rfl
      · cases found

theorem age_le {clock : Clock} {checked : Value} {time : ℚ} (counts : Counts checked time)
    (past : time ≤ clock.now) : ∃ flag,
      (do atMost (← minus clock.now checked) 600) = (.ok flag : Except Raised Bool) ∧
        (flag = true ↔ clock.now - time ≤ 600 ∨ Rounds clock.now checked time) := by
  rcases counts.1 with rfl | ⟨whole, rfl, rfl⟩
  · refine ⟨decide ((clock.now : ℚ) - time ≤ 600 + 1 / 2 ^ 44), ?_, ?_⟩
    · rw [minus, clock.exact]
      exact floatOf_le_iff (sub_nonneg.mpr past)
    · rw [decide_eq_true_iff]
      constructor
      · intro late
        rcases le_or_gt ((clock.now : ℚ) - time) 600 with young | old
        · exact .inl young
        · exact .inr ⟨rfl, old, late⟩
      · rintro (young | rounds)
        · have room : (0 : ℚ) ≤ 1 / 2 ^ 44 := by positivity
          linarith
        · exact rounds.2.2
  · refine ⟨decide (((clock.now - whole : Int) : ℚ) ≤ ((600 : Int) : ℚ)), rfl, ?_⟩
    rw [decide_eq_true_iff]
    push_cast
    simp [Rounds]

/-! ## Valid reports -/

def itemOf (value : Value) (name : String) : Value := field (field value "exports") name

/-- The value is a valid report of the time `checked`, and says that an export is healthy. -/
def Healthy (now : Int) (value : Value) (checked : ℚ) (name : String) : Prop :=
  (∃ fields, value = .dict fields ∧ Fits now fields checked) ∧
    field (itemOf value name) "state" = .str "healthy"

theorem readOk_report {clock : Clock} {checked : Value} {time : ℚ} (counts : Counts checked time)
    (past : time ≤ clock.now) {item : List (String × Value)} (fits : ExportFits time item) :
    ∃ flag, readOk clock.now checked (.dict item) = .ok flag ∧
      (flag = true ↔ get item "state" = .str "healthy" ∧
        (clock.now - time ≤ 600 ∨ Rounds clock.now checked time)) := by
  rcases fits.state with ⟨state, _, known⟩
  rcases age_le counts past with ⟨young, answered, same⟩
  have there : (Value.dict item).subscript "state" = .ok (.str state) :=
    subscript_eq known (by simp)
  rw [readOk, there, known, Value.str.injEq]
  by_cases healthy : state = "healthy"
  · refine ⟨young, ?_, ?_⟩
    · rw [← answered, healthy]
      rfl
    · rw [same, iff_and_self]
      exact fun _ => healthy
  · refine ⟨false, ?_, ?_⟩
    · have other : (Value.str state).isText "healthy" = false := decide_eq_false healthy
      rw [ok_bind, other]
      rfl
    · simp [healthy]

theorem exportSamples_eq {value : Value} {read : Value → Except Raised Value}
    {number : String → Value} (each : ∀ name ∈ exports, ∃ items item,
      value.subscript "exports" = .ok items ∧ items.subscript name = .ok item ∧
        read item = .ok (number name)) :
    exportSamples value true read = .ok (exports.map fun name => (label name, number name)) := by
  apply mapM_ok
  intro name member
  rcases each name member with ⟨items, item, found, own, result⟩
  rw [if_pos rfl, found, ok_bind, own, ok_bind, result]
  rfl

/-- What is read of the item of an export in a valid report. -/
theorem item_of_fits {now : Int} {fields : List (String × Value)} {checked : ℚ}
    (fits : Fits now fields checked) {name : String} (member : name ∈ exports) :
    ∃ items item, (Value.dict fields).subscript "exports" = .ok items ∧
      items.subscript name = .ok (.dict item) ∧ itemOf (.dict fields) name = .dict item ∧
      ExportFits checked item := by
  rcases fits.exports with ⟨items, found, each⟩
  rcases each name member with ⟨item, own, right⟩
  refine ⟨.dict items, item, subscript_eq found (by simp), subscript_eq own (by simp), ?_, right⟩
  rw [itemOf, field, found, field, own]

theorem exportSamples_field {now : Int} {fields : List (String × Value)} {checked : ℚ}
    (fits : Fits now fields checked) {own : String} (numeric : own ∈ numberFields) :
    exportSamples (.dict fields) true (Value.subscript own) =
      .ok (exports.map fun name => (label name, field (itemOf (.dict fields) name) own)) := by
  apply exportSamples_eq
  intro name member
  rcases item_of_fits fits member with ⟨items, item, found, there, same, right⟩
  rcases right.numbers own numeric with ⟨number, counts⟩
  refine ⟨items, _, found, there, ?_⟩
  rw [counts.subscript_eq, same, field]

theorem metrics_of_valid {clock : Clock} {fields : List (String × Value)} {checked : ℚ}
    (fits : Fits clock.now fields checked) (whole : ¬ Breaks clock.now (.dict fields)) :
    metrics (.dict fields) clock.now = .ok (Page.report clock.now (.dict fields)).metrics := by
  have valid : validStatus (.dict fields) clock.now = .ok true :=
    (validStatus_decides _ _).yes whole ⟨fields, checked, rfl, fits⟩
  have reads : exportSamples (.dict fields) true
      (fun item => return ofFlag (← readOk clock.now (get fields "checked_at") item)) =
        .ok (exports.map fun name =>
          (label name, ofFlag ((Page.report clock.now (.dict fields)).reads name))) := by
    apply exportSamples_eq
    intro name member
    rcases item_of_fits fits member with ⟨items, item, found, there, same, right⟩
    rcases readOk_report fits.time fits.past right with ⟨flag, answered, _⟩
    refine ⟨items, _, found, there, ?_⟩
    have own : (Page.report clock.now (.dict fields)).reads name = flag := by
      change answer (readOk clock.now (get fields "checked_at") (itemOf (.dict fields) name)) = _
      rw [same, answered, answer]
    rw [own, answered]
    rfl
  have last := exportSamples_field fits (by simp [numberFields] : "last_read_ok" ∈ numberFields)
  have attempts := exportSamples_field fits (by simp [numberFields] : "recoveries" ∈ numberFields)
  have recovered := exportSamples_field fits (by simp [numberFields] : "recovery_ok" ∈ numberFields)
  rw [metrics, valid, ok_bind, checkedOf, if_pos rfl, fits.time.subscript_eq, ok_bind,
    exportMetrics, NfsMetrics.fields]
  simp only [List.mapM_cons, List.mapM_nil, reads, last, attempts, recovered, ok_bind]
  rfl

/-! ## Files -/

/-- The file holds a value, as JSON. -/
def Holds (python : Interpreter) (file : Option Line) (value : Value) : Prop :=
  ∃ data content, file = some data ∧ Utf8.opened data = some content ∧
    Json.loads python.depth (.ofList content) = .ok value

/-- The interpreter gives up on the text of the file, which nests too deep for it. -/
def TooDeep (python : Interpreter) (file : Option Line) : Prop :=
  ∃ data content, file = some data ∧ Utf8.opened data = some content ∧
    Json.loads python.depth (.ofList content) = .error .recursionError

structure Page.Truthful (page : Page) (python : Interpreter) (file : Option Line) (now : Int) :
    Prop where
  time : page.time = now
  valid : page.valid = true ↔ ∃ value, Holds python file value ∧ Valid now value
  reads : ∀ name ∈ exports, page.reads name = true → ∃ value checked,
    Holds python file value ∧ Healthy now value checked name ∧ now - checked ≤ 600

/-- `main` prints all metrics, and they are so. -/
def Truthful (python : Interpreter) (file : Option Line) (now : Int) : Prop :=
  ∃ page : Page, main python file now = .ok (text python page.metrics) ∧
    (do metrics (← readStatus python file) now) = .ok page.metrics ∧
    page.Truthful python file now

/-- The text does not nest too deep, no number that is checked is too large, and the age of a
report with a healthy export is not rounded to 600 seconds. -/
structure Safe (python : Interpreter) (file : Option Line) (now : Int) : Prop where
  shallow : ¬ TooDeep python file
  whole : ∀ value, Holds python file value → ¬ Breaks now value
  exact : ∀ value checked, Holds python file value → ∀ name ∈ exports,
    Healthy now value checked name → ¬ Rounds now (field value "checked_at") checked

theorem main_eq (python : Interpreter) (file : Option Line) (now : Int) :
    main python file now =
      (do metrics (← readStatus python file) now : Except Raised _).map (text python) := by
  rw [main]
  cases readStatus python file with
  | error raised => rfl
  | ok value => rfl

theorem Holds.unique {python : Interpreter} {file : Option Line} {one other : Value}
    (left : Holds python file one) (right : Holds python file other) : one = other := by
  rcases left with ⟨data, content, there, opened, read⟩
  rcases right with ⟨data', content', there', opened', read'⟩
  obtain rfl : data = data' := Option.some.inj (there.symm.trans there')
  obtain rfl : content = content' := Option.some.inj (opened.symm.trans opened')
  exact Except.ok.inj (read.symm.trans read')

theorem Holds.shallow {python : Interpreter} {file : Option Line} {value : Value}
    (holds : Holds python file value) : ¬ TooDeep python file := by
  rcases holds with ⟨data, content, there, opened, read⟩
  rintro ⟨data', content', there', opened', deep⟩
  obtain rfl : data = data' := Option.some.inj (there.symm.trans there')
  obtain rfl : content = content' := Option.some.inj (opened.symm.trans opened')
  rw [read] at deep
  cases deep

theorem Holds.readStatus_eq {python : Interpreter} {file : Option Line} {value : Value}
    (holds : Holds python file value) : readStatus python file = .ok value := by
  rcases holds with ⟨data, content, rfl, opened, read⟩
  simp only [readStatus, opened, read]

/-- What is read is what the file holds, or nothing. -/
theorem readStatus_cases (python : Interpreter) (file : Option Line) :
    (∃ value, Holds python file value ∧ readStatus python file = .ok value) ∨
      (TooDeep python file ∧ readStatus python file = .error .recursionError) ∨
      ((∀ value, ¬ Holds python file value) ∧ ¬ TooDeep python file ∧
        readStatus python file = .ok .none) := by
  cases file with
  | none => exact .inr (.inr ⟨by simp [Holds], by simp [TooDeep], rfl⟩)
  | some data =>
      rw [readStatus]
      cases opened : Utf8.opened data with
      | none => exact .inr (.inr ⟨by simp [Holds, opened], by simp [TooDeep, opened], rfl⟩)
      | some content =>
          simp only
          cases read : Json.loads python.depth (.ofList content) with
          | ok value => exact .inl ⟨value, ⟨data, content, rfl, opened, read⟩, rfl⟩
          | error raised =>
              rcases Json.loads_refuses _ _ raised read with rfl | rfl
              · exact .inr (.inr ⟨by simp [Holds, opened, read], by simp [TooDeep, opened, read],
                  rfl⟩)
              · exact .inr (.inl ⟨⟨data, content, rfl, opened, read⟩, rfl⟩)

theorem Page.reads_eq {page other : Page} (same : page.metrics = other.metrics) :
    ∀ name ∈ exports, page.reads name = other.reads name := by
  have flags (one two : Bool) (equal : ofFlag one = ofFlag two) : one = two := by
    cases one <;> cases two <;> simp [ofFlag] at equal ⊢
  simp only [Page.metrics, List.cons.injEq, perExport, Metric.mk.injEq, true_and] at same
  intro name member
  have equal := List.map_inj_left.mp same.2.2.2.1 name member
  exact flags _ _ (Prod.mk.inj equal).2

section

variable {python : Interpreter} {clock : Clock} {file : Option Line}

/-- A page that was made is printed. -/
theorem truthful_read_iff {value : Value} {page : Page} (read : readStatus python file = .ok value)
    (made : metrics value clock.now = .ok page.metrics) :
    Truthful python file clock.now ↔
      ∃ other : Page, other.metrics = page.metrics ∧ other.Truthful python file clock.now := by
  rw [Truthful]
  have collected : (do metrics (← readStatus python file) clock.now) = .ok page.metrics := by
    rw [read, ok_bind, made]
  constructor
  · rintro ⟨other, _, same, truthful⟩
    exact ⟨other, Except.ok.inj (same.symm.trans collected), truthful⟩
  · rintro ⟨other, same, truthful⟩
    refine ⟨other, ?_, same ▸ collected, truthful⟩
    rw [main_eq, collected, same]
    rfl

/-- Nothing is printed if something is raised. -/
theorem not_truthful {raised : Raised}
    (failed : (do metrics (← readStatus python file) clock.now) = .error raised) :
    ¬ Truthful python file clock.now := by
  rintro ⟨page, _, same, _⟩
  rw [failed] at same
  cases same

/-- A page without a report is truthful if there is none. -/
theorem blank_truthful {value : Value} (read : readStatus python file = .ok value)
    (whole : ¬ Breaks clock.now value) (wrong : ¬ Valid clock.now value)
    (absent : ∀ other, Holds python file other → ¬ Valid clock.now other) :
    Truthful python file clock.now := by
  rw [truthful_read_iff read (metrics_of_invalid whole wrong)]
  refine ⟨_, rfl, rfl, ?_, ?_⟩
  · simp only [Page.blank, Bool.false_eq_true, false_iff]
    rintro ⟨other, holds, valid⟩
    exact absent other holds valid
  · intro name _ impossible
    cases impossible

end

/-- What the page of a valid report says of an export. -/
theorem reads_report {clock : Clock} {fields : List (String × Value)} {checked : ℚ}
    (fits : Fits clock.now fields checked) {name : String} (member : name ∈ exports) :
    (Page.report clock.now (.dict fields)).reads name = true ↔
      Healthy clock.now (.dict fields) checked name ∧ (clock.now - checked ≤ 600 ∨
        Rounds clock.now (field (.dict fields) "checked_at") checked) := by
  rcases item_of_fits fits member with ⟨_, item, _, _, same, right⟩
  rcases readOk_report fits.time fits.past right with ⟨flag, answered, means⟩
  have own : (Page.report clock.now (.dict fields)).reads name = flag := by
    change answer (readOk clock.now (get fields "checked_at") (itemOf (.dict fields) name)) = _
    rw [same, answered, answer]
  rw [own, means, Healthy, same]
  constructor
  · rintro ⟨healthy, young⟩
    exact ⟨⟨⟨fields, rfl, fits⟩, healthy⟩, young⟩
  · rintro ⟨⟨_, healthy⟩, young⟩
    exact ⟨healthy, young⟩

/-- The collector prints all metrics, and says no more than the file does, unless the text nests
too deep, a number is too large or an age is rounded. -/
theorem main_truthful_iff (python : Interpreter) (clock : Clock) (file : Option Line) :
    Truthful python file clock.now ↔ Safe python file clock.now := by
  rcases readStatus_cases python file with
    ⟨value, holds, read⟩ | ⟨deep, read⟩ | ⟨empty, shallow, read⟩
  · have own {other : Value} (also : Holds python file other) : other = value :=
      also.unique holds
    by_cases breaks : Breaks clock.now value
    · rcases metrics_of_breaks breaks with ⟨raised, failed⟩
      have silent : ¬ Truthful python file clock.now :=
        not_truthful (by rw [read, ok_bind, failed])
      have unsafe_ : ¬ Safe python file clock.now := fun safe => safe.whole value holds breaks
      exact iff_of_false silent unsafe_
    by_cases valid : Valid clock.now value
    · rcases valid with ⟨fields, checked, rfl, fits⟩
      rw [truthful_read_iff read (metrics_of_valid fits breaks)]
      constructor
      · rintro ⟨page, same, truthful⟩
        refine ⟨holds.shallow, fun other also => own also ▸ breaks, ?_⟩
        rintro other time also name member healthy rounds
        rcases own also with rfl
        rcases healthy with ⟨⟨fields', equal, fits'⟩, said⟩
        cases equal
        obtain rfl : time = checked := fits'.time.unique fits.time
        have shown := (reads_report fits member).mpr ⟨⟨⟨fields, rfl, fits⟩, said⟩, .inr rounds⟩
        rw [← Page.reads_eq same name member] at shown
        rcases truthful.reads name member shown with
          ⟨value', time', also', ⟨⟨fields', equal', fits''⟩, _⟩, young⟩
        rcases own also' with rfl
        cases equal'
        obtain rfl : time' = time := fits''.time.unique fits.time
        exact absurd young (not_le.mpr rounds.2.1)
      · intro safe
        refine ⟨_, rfl, rfl, ?_, ?_⟩
        · exact iff_of_true rfl ⟨_, holds, fields, checked, rfl, fits⟩
        · intro name member shown
          rcases (reads_report fits member).mp shown with ⟨healthy, young | rounds⟩
          · exact ⟨_, checked, holds, healthy, young⟩
          · exact absurd rounds (safe.exact _ checked holds name member healthy)
    · have absent (other : Value) (also : Holds python file other) : ¬ Valid clock.now other :=
        own also ▸ valid
      refine iff_of_true (blank_truthful read breaks valid absent) ?_
      refine ⟨holds.shallow, fun other also => own also ▸ breaks, ?_⟩
      rintro other time also name _ healthy
      rcases healthy.1 with ⟨fields, same, fits⟩
      exact absurd ⟨fields, time, same, fits⟩ (absent other also)
  · have silent : ¬ Truthful python file clock.now :=
      not_truthful (by rw [read, error_bind])
    exact iff_of_false silent fun safe => safe.shallow deep
  · have nothing : ¬ Valid clock.now .none := by
      rintro ⟨fields, checked, same, _⟩
      cases same
    have whole : ¬ Breaks clock.now .none := by
      rintro ⟨fields, same, _⟩
      cases same
    refine iff_of_true (blank_truthful read whole nothing fun other holds => ?_) ?_
    · exact absurd holds (empty other)
    · exact ⟨shallow, fun other holds => absurd holds (empty other),
        fun other _ holds => absurd holds (empty other)⟩

/-- A report of a time of 310 digits. -/
def hugeReport : Line :=
  "\x7b\"schema\": 1, \"checked_at\": 1".toList ++ (List.replicate 309 '0' ++ ['\x7d'])

/-- What is scanned is the two fields, and nothing is left. -/
def scansHuge : Except Raised (Value × List Char) → Bool
  | .ok (.dict [(first, .int one), (second, .int time)], []) =>
      decide (first = "schema" ∧ one = 1 ∧ second = "checked_at" ∧ time = 10 ^ 309)
  | _ => false

theorem eq_of_scansHuge {scanned : Except Raised (Value × List Char)}
    (scans : scansHuge scanned = true) :
    scanned = .ok (.dict [("schema", .int 1), ("checked_at", .int (10 ^ 309))], []) := by
  unfold scansHuge at scans
  split at scans
  · simp only [decide_eq_true_eq] at scans
    rcases scans with ⟨rfl, rfl, rfl, rfl⟩
    rfl
  · cases scans

theorem hugeReport_loads : Json.loads 900 (.ofList hugeReport) =
    .ok (.dict [("schema", .int 1), ("checked_at", .int (10 ^ 309))]) := by
  have scans : scansHuge (Json.scanValue (2 * (Json.skip hugeReport).length + 1) 900
      (Json.skip hugeReport)) = true := by decide +kernel
  rw [Json.loads, String.toList_ofList]
  simp only [eq_of_scansHuge scans]
  rfl

theorem hugeReport_breaks :
    Breaks 1790000000 (.dict [("schema", .int 1), ("checked_at", .int (10 ^ 309))]) := by
  have large : (2 : ℚ) ^ 1025 ≤ ((10 ^ 309 : Int) : ℚ) :=
    calc (2 : ℚ) ^ 1025 ≤ 2 ^ 3 * (2 ^ 93) ^ 11 := by
          rw [← pow_mul, ← pow_add]
          exact pow_le_pow_right₀ (by norm_num) (by norm_num)
      _ ≤ 10 * (10 ^ 28) ^ 11 :=
          mul_le_mul (by norm_num) (pow_le_pow_left₀ (by norm_num) (by norm_num) 11)
            (by positivity) (by norm_num)
      _ = ((10 ^ 309 : Int) : ℚ) := by
          rw [← pow_mul, ← pow_succ', Int.cast_pow, Int.cast_ofNat]
  exact ⟨_, rfl, by decide +kernel, .inl ⟨_, rfl, Double.nearest_none large⟩⟩

/-- The huge time raises an `OverflowError`, and nothing is printed. -/
theorem main_huge : ¬ Truthful ⟨900, fun _ => []⟩ (some hugeReport) 1790000000 := by
  intro ⟨page, _, made, _⟩
  have opened : Utf8.opened hugeReport = some hugeReport := by decide +kernel
  have read : readStatus ⟨900, fun _ => []⟩ (some hugeReport) = _ :=
    Holds.readStatus_eq ⟨_, _, rfl, opened, hugeReport_loads⟩
  rw [read] at made
  have ⟨raised, failed⟩ := metrics_of_breaks hugeReport_breaks
  cases failed.symm.trans made

end Homelab.NfsMetrics
