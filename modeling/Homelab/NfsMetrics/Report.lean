import Homelab.NfsMetrics.Collector

/-! # What a report has to say

The conditions on a report by themselves, and where the checks of the collector break.
-/

namespace Homelab.NfsMetrics

open Text Python Checklist

/-! ## Numbers -/

def Counts (value : Value) (number : ℚ) : Prop :=
  (value = .float (.finite number) ∨ ∃ whole : Int, value = .int whole ∧ number = whole) ∧
    0 ≤ number

/-- A whole number that is too large to be a double. -/
def Huge (value : Value) : Prop :=
  ∃ whole : Int, value = .int whole ∧ Double.nearest whole = none

theorem Counts.amount_eq {value : Value} {number : ℚ} (counts : Counts value number) :
    amount value = some number := by
  rcases counts.1 with rfl | ⟨whole, rfl, rfl⟩ <;> rfl

theorem Counts.unique {value : Value} {one other : ℚ} (left : Counts value one)
    (right : Counts value other) : one = other := by
  have both := left.amount_eq.symm.trans right.amount_eq
  exact Option.some.inj both

theorem Counts.exists_iff {value : Value} {number : ℚ} (counts : Counts value number)
    (property : ℚ → Prop) : (∃ other, Counts value other ∧ property other) ↔ property number := by
  constructor
  · rintro ⟨other, own, holds⟩
    exact own.unique counts ▸ holds
  · intro holds
    exact ⟨number, counts, holds⟩

theorem Counts.equals_iff {value : Value} {number : ℚ} (counts : Counts value number)
    (other : Int) : equals value other = true ↔ number = other := by
  rw [equals, counts.amount_eq, decide_eq_true_eq, Option.some.injEq]

theorem Counts.greater_eq {left right : Value} {one other : ℚ} (first : Counts left one)
    (second : amount right = some other) : greater left right = .ok (other < one) := by
  rw [greater, first.amount_eq, second]

theorem validNumber_decides (value : Value) :
    Decides (validNumber value) (∃ number, Counts value number) (Huge value) := by
  cases value with
  | int whole =>
      have counts : (∃ number, Counts (.int whole) number) ↔ 0 ≤ whole := by
        constructor
        · rintro ⟨number, same | ⟨own, same, rfl⟩, positive⟩
          · cases same
          · cases same
            exact_mod_cast positive
        · intro positive
          exact ⟨whole, .inr ⟨whole, rfl, rfl⟩, by exact_mod_cast positive⟩
      have huge : Huge (.int whole) ↔ Double.nearest whole = none := by
        constructor
        · rintro ⟨own, same, large⟩
          cases same
          exact large
        · intro large
          exact ⟨whole, rfl, large⟩
      rw [counts, huge, validNumber]
      cases near : Double.nearest (whole : ℚ) with
      | none =>
          exact ⟨fun _ => ⟨_, rfl⟩, fun whole_ => (whole_ rfl).elim,
            fun whole_ => (whole_ rfl).elim⟩
      | some double =>
          exact (Decides.of_bool decide_eq_true_iff).congr Iff.rfl (by simp)
  | float number =>
      cases number with
      | finite number =>
          have counts : decide (0 ≤ number) = true ↔
              ∃ own, Counts (.float (.finite number)) own := by
            rw [decide_eq_true_iff]
            constructor
            · intro positive
              exact ⟨number, .inl rfl, positive⟩
            · rintro ⟨own, same | ⟨whole, same, _⟩, positive⟩
              · cases same
                exact positive
              · cases same
          exact (Decides.of_bool counts).congr Iff.rfl (by simp [Huge])
      | nan => exact Decides.refused (by simp [Huge]) (by simp [Counts])
      | infinite => exact Decides.refused (by simp [Huge]) (by simp [Counts])
  | none => exact Decides.refused (by simp [Huge]) (by simp [Counts])
  | bool => exact Decides.refused (by simp [Huge]) (by simp [Counts])
  | str => exact Decides.refused (by simp [Huge]) (by simp [Counts])
  | list => exact Decides.refused (by simp [Huge]) (by simp [Counts])
  | dict => exact Decides.refused (by simp [Huge]) (by simp [Counts])

/-! ## Exports -/

/-- What the item of an export has to say, in a report of the time `checked`. -/
structure ExportFits (checked : ℚ) (item : List (String × Value)) : Prop where
  state : ∃ state ∈ states, get item "state" = .str state
  numbers : ∀ field ∈ numberFields, ∃ number, Counts (get item field) number
  read : ∀ number, Counts (get item "last_read_ok") number → number ≤ checked
  flag : ∀ number, Counts (get item "recovery_ok") number → number = 0 ∨ number = 1

def ExportValid (checked : ℚ) (value : Value) : Prop :=
  ∃ item, value = .dict item ∧ ExportFits checked item

/-- A number of the item is too large, and what is checked before it is right. -/
def ExportBreaks (value : Value) : Prop :=
  ∃ item, value = .dict item ∧ (∃ state ∈ states, get item "state" = .str state) ∧
    FirstBreaks (fun field => ∃ number, Counts (get item field) number)
      (fun field => Huge (get item field)) numberFields

theorem subscript_eq {fields : List (String × Value)} {name : String} {value : Value}
    (found : get fields name = value) (there : value ≠ .none) :
    (Value.dict fields).subscript name = .ok value := by
  rw [get] at found
  rw [Value.subscript]
  cases own : fields.lookup name with
  | none =>
      rw [own] at found
      exact absurd found.symm there
  | some kept =>
      rw [own] at found
      rw [← found]
      rfl

theorem Counts.subscript_eq {fields : List (String × Value)} {name : String} {number : ℚ}
    (counts : Counts (get fields name) number) :
    (Value.dict fields).subscript name = .ok (get fields name) := by
  apply NfsMetrics.subscript_eq rfl
  intro absent
  have counted := counts.amount_eq
  rw [absent] at counted
  cases counted

/-- The last two checks of an export, which are made of numbers. -/
theorem readings_decide {checked : Value} {time : ℚ} (counts : amount checked = some time)
    {item : List (String × Value)}
    (numbers : ∀ field ∈ numberFields, ∃ number, Counts (get item field) number) :
    Decides
      (both (return !(← greater (← (Value.dict item).subscript "last_read_ok") checked)) (do
        let flag ← (Value.dict item).subscript "recovery_ok"
        return equals flag 0 || equals flag 1))
      ((∀ number, Counts (get item "last_read_ok") number → number ≤ time) ∧
        ∀ number, Counts (get item "recovery_ok") number → number = 0 ∨ number = 1)
      False := by
  rcases numbers "last_read_ok" (by simp [numberFields]) with ⟨read, readCounts⟩
  rcases numbers "recovery_ok" (by simp [numberFields]) with ⟨flag, flagCounts⟩
  have early : Decides (.ok !(decide (time < read)) : Except Raised Bool)
      (∀ number, Counts (get item "last_read_ok") number → number ≤ time) False := by
    apply Decides.of_bool
    simp only [Bool.not_eq_true', decide_eq_false_iff_not, not_lt]
    exact ⟨fun le number other => other.unique readCounts ▸ le, fun all => all read readCounts⟩
  have last : Decides
      (.ok (equals (get item "recovery_ok") 0 || equals (get item "recovery_ok") 1) :
        Except Raised Bool)
      (∀ number, Counts (get item "recovery_ok") number → number = 0 ∨ number = 1) False := by
    apply Decides.of_bool
    rw [Bool.or_eq_true, flagCounts.equals_iff, flagCounts.equals_iff, Int.cast_zero,
      Int.cast_one]
    exact ⟨fun either number other => other.unique flagCounts ▸ either,
      fun all => all flag flagCounts⟩
  have compared : (do
      return !(← greater (← (Value.dict item).subscript "last_read_ok") checked)) =
        (.ok !(decide (time < read)) : Except Raised Bool) := by
    rw [readCounts.subscript_eq]
    change (do return !(← greater (get item "last_read_ok") checked)) = _
    rw [readCounts.greater_eq counts]
    rfl
  rw [compared, flagCounts.subscript_eq]
  have checks := early.both fun _ _ => last
  rw [and_false, or_false] at checks
  exact checks

theorem validExport_decides {checked : Value} {time : ℚ} (counts : amount checked = some time)
    (value : Value) :
    Decides (validExport checked value) (ExportValid time value) (ExportBreaks value) := by
  cases value with
  | dict item =>
      have valid : ExportValid time (.dict item) ↔ ExportFits time item := by
        simp [ExportValid]
      have breaks : ExportBreaks (.dict item) ↔
          (∃ state ∈ states, get item "state" = .str state) ∧
            FirstBreaks (fun field => ∃ number, Counts (get item field) number)
              (fun field => Huge (get item field)) numberFields := by
        simp [ExportBreaks]
      rw [valid, breaks, validExport]
      by_cases text : ∃ state, get item "state" = .str state
      · rcases text with ⟨state, known⟩
        have own : (∃ other ∈ states, get item "state" = .str other) ↔ state ∈ states := by
          simp [known]
        rw [own, known]
        have first : Decides (.ok (decide (state ∈ states)) : Except Raised Bool)
            (state ∈ states) False := Decides.of_bool decide_eq_true_iff
        have numbers := Decides.allM fun field (_ : field ∈ numberFields) =>
          validNumber_decides (get item field)
        have checks := first.both fun _ _ => numbers.both fun all _ => readings_decide counts all
        rw [and_false, or_false, false_or] at checks
        refine checks.congr ?_ Iff.rfl
        rw [← own]
        constructor
        · rintro ⟨stated, all, read, flag⟩
          exact ⟨stated, all, read, flag⟩
        · intro fits
          exact ⟨fits.state, fits.numbers, fits.read, fits.flag⟩
      · have unknown : ¬ ∃ state ∈ states, get item "state" = .str state := by
          rintro ⟨state, _, same⟩
          exact text ⟨state, same⟩
        have plain : validExport checked (.dict item) = .ok false := by
          rw [validExport]
          split
          · next state same => exact absurd ⟨state, same⟩ text
          · rfl
        rw [validExport] at plain
        rw [plain]
        exact Decides.refused (fun broken => unknown broken.1) fun fits => unknown fits.state
  | _ => exact Decides.refused (by simp [ExportBreaks]) (by simp [ExportValid])

/-! ## Reports -/

/-- What a report of the time `checked` has to say. The version is equal to one as Python
compares. -/
structure Fits (now : Int) (fields : List (String × Value)) (checked : ℚ) : Prop where
  schema : amount (get fields "schema") = some 1
  time : Counts (get fields "checked_at") checked
  past : checked ≤ now
  positive : checked ≠ 0
  exports : ∃ items, get fields "exports" = .dict items ∧
    ∀ name ∈ exports, ExportValid checked (get items name)

def Valid (now : Int) (value : Value) : Prop :=
  ∃ fields checked, value = .dict fields ∧ Fits now fields checked

/-- A number of the report is too large, and what is checked before it is right. -/
def Breaks (now : Int) (value : Value) : Prop :=
  ∃ fields, value = .dict fields ∧ amount (get fields "schema") = some 1 ∧
    (Huge (get fields "checked_at") ∨
      ∃ checked, Counts (get fields "checked_at") checked ∧ checked ≤ now ∧ checked ≠ 0 ∧
        ∃ items, get fields "exports" = .dict items ∧
          FirstBreaks (fun name => ExportValid checked (get items name))
            (fun name => ExportBreaks (get items name)) exports)

/-- The checks of the exports. -/
theorem exports_decide {checked : Value} {time : ℚ} (counts : amount checked = some time)
    (value : Value) :
    Decides
      (match value with
      | .dict items => exports.allM fun name => validExport checked (get items name)
      | _ => .ok false)
      (∃ items, value = .dict items ∧ ∀ name ∈ exports, ExportValid time (get items name))
      (∃ items, value = .dict items ∧
        FirstBreaks (fun name => ExportValid time (get items name))
          (fun name => ExportBreaks (get items name)) exports) := by
  cases value with
  | dict items =>
      have each := Decides.allM fun name (_ : name ∈ exports) =>
        validExport_decides counts (get items name)
      exact each.congr (by simp) (by simp)
  | _ => exact Decides.refused (by simp) (by simp)

/-- The checks of the time of the report. -/
theorem checked_decides {checked : Value} {time : ℚ} (counts : Counts checked time) (now : Int) :
    Decides (both (return !(← greater checked (.int now))) (.ok !(equals checked 0)))
      (time ≤ now ∧ time ≠ 0) False := by
  have past : Decides (return !(← greater checked (.int now)) : Except Raised Bool)
      (time ≤ now) False := by
    rw [counts.greater_eq rfl]
    have le : (!(decide ((now : ℚ) < time))) = true ↔ time ≤ now := by simp
    exact Decides.of_bool le
  have positive : Decides (.ok !(equals checked 0) : Except Raised Bool) (time ≠ 0) False := by
    apply Decides.of_bool
    rw [Bool.not_eq_true', Bool.eq_false_iff, Ne, counts.equals_iff, Int.cast_zero]
  have checks := past.both fun _ _ => positive
  rw [and_false, or_false] at checks
  exact checks

theorem validStatus_decides (value : Value) (now : Int) :
    Decides (validStatus value now) (Valid now value) (Breaks now value) := by
  cases value with
  | dict fields =>
      rw [validStatus]
      generalize found : get fields "checked_at" = checked
      have schema : Decides (.ok (equals (get fields "schema") 1) : Except Raised Bool)
          (amount (get fields "schema") = some 1) False := by
        apply Decides.of_bool
        rw [equals, decide_eq_true_iff, Int.cast_one]
      have rest {time : ℚ} (counts : Counts checked time) :=
        (checked_decides counts now).both fun _ _ =>
          exports_decide counts.amount_eq (get fields "exports")
      have checks := schema.both fun _ _ =>
        (validNumber_decides checked).both fun number _ => by
          rcases number with ⟨time, counts⟩
          exact (rest counts).congr
            (counts.exists_iff fun time => (time ≤ now ∧ time ≠ 0) ∧
              ∃ items, get fields "exports" = .dict items ∧
                ∀ name ∈ exports, ExportValid time (get items name)).symm
            (counts.exists_iff fun time => False ∨ (time ≤ now ∧ time ≠ 0) ∧
              ∃ items, get fields "exports" = .dict items ∧
                FirstBreaks (fun name => ExportValid time (get items name))
                  (fun name => ExportBreaks (get items name)) exports).symm
      refine checks.congr ?_ ?_
      · constructor
        · rintro ⟨version, _, time, counts, ⟨past, positive⟩, items⟩
          exact ⟨fields, time, rfl, version, found ▸ counts, past, positive, items⟩
        · rintro ⟨own, time, same, fits⟩
          cases same
          have counts := found ▸ fits.time
          exact ⟨fits.schema, ⟨time, counts⟩, time, counts, ⟨fits.past, fits.positive⟩,
            fits.exports⟩
      · constructor
        · rintro (impossible | ⟨version, huge | ⟨_, time, counts, impossible | ⟨both, items⟩⟩⟩)
          · exact impossible.elim
          · exact ⟨fields, rfl, version, .inl (found ▸ huge)⟩
          · exact impossible.elim
          · exact ⟨fields, rfl, version, .inr ⟨time, found ▸ counts, both.1, both.2, items⟩⟩
        · rintro ⟨own, same, version, broken⟩
          cases same
          rw [found] at broken
          rcases broken with huge | ⟨time, counts, past, positive, items⟩
          · exact .inr ⟨version, .inl huge⟩
          · exact .inr ⟨version, .inr ⟨⟨time, counts⟩, time, counts,
              .inr ⟨⟨past, positive⟩, items⟩⟩⟩
  | _ => exact Decides.refused (by simp [Breaks]) (by simp [Valid])

end Homelab.NfsMetrics
