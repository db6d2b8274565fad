import Homelab.Foundation.Decimal
import Homelab.Foundation.JsonAgreement
import Homelab.RunnerMetrics.Reference

/-! # Numbers that both collectors read alike

Decimal texts, texts without a digit, and JSON numbers that stay well inside 64 bits.
-/

namespace Homelab.RunnerMetrics

open Text GoText GoJson Python

/-! ## Texts -/

def DigitFree (text : Line) : Prop := ∀ char ∈ text, isDecimal char = false

/-- The white space of ASCII. -/
def asciiSpace (char : Char) : Bool := [9, 10, 11, 12, 13, 32].contains char.toNat

/-- A decimal integer with a sign or none, and white space around it. -/
structure Decimal (text : Line) (value : Int) : Prop where
  parts : ∃ before sign digits after, text = before ++ ((sign : Line) ++ digits) ++ after ∧
    (∀ char ∈ before, asciiSpace char = true) ∧ (∀ char ∈ after, asciiSpace char = true) ∧
    (sign = [] ∨ sign = ['+'] ∨ sign = ['-']) ∧ digits ≠ [] ∧
    (∀ char ∈ digits, char.isDigit = true) ∧
    value = if sign = ['-'] then -(Json.natOf digits : Int) else Json.natOf digits

/-- A text without a digit, or a decimal integer that stays well inside 64 bits. -/
def Numeric (text : Line) : Prop :=
  DigitFree text ∨ ∃ value, Decimal text value ∧ |value| < 2 ^ 62

/-- Python reads no integer with more than 4300 digits. -/
def Long (text : Line) : Prop := 4300 < text.countP Char.isDigit

instance (text : Line) : Decidable (Long text) :=
  inferInstanceAs (Decidable (4300 < text.countP Char.isDigit))

/-- The text between what is trimmed. -/
theorem trim_between {own : Char → Bool} {before core after : Line}
    (front : ∀ char ∈ before, own char = true) (back : ∀ char ∈ after, own char = true)
    (kept : ∀ char ∈ core, own char = false) (some_ : core ≠ []) :
    ((before ++ core ++ after).dropWhile own).rdropWhile own = core := by
  have first : (before ++ core ++ after).dropWhile own = core ++ after := by
    rw [List.append_assoc, List.dropWhile_append_of_pos front]
    cases core with
    | nil => exact absurd rfl some_
    | cons char rest =>
        rw [List.cons_append, List.dropWhile_cons_of_neg (by simp [kept char List.mem_cons_self])]
  rw [first, List.rdropWhile, List.reverse_append,
    List.dropWhile_append_of_pos fun char member => back char (List.mem_reverse.mp member)]
  have last : core.reverse.dropWhile own = core.reverse := by
    rw [List.dropWhile_eq_self_iff]
    intro long
    rw [kept _ (List.mem_reverse.mp (List.getElem_mem long))]
    decide
  rw [last, List.reverse_reverse]

theorem parseUint_digits {digits : Line} (all : ∀ char ∈ digits, char.isDigit = true)
    (value : Nat) (small : digits.foldl (fun value char => value * 10 + (char.toNat - 48)) value <
      2 ^ 64) :
    parseUint value digits =
      .ok (digits.foldl (fun value char => value * 10 + (char.toNat - 48)) value) := by
  have grows : ∀ (digits : Line) (value : Nat),
      value ≤ digits.foldl (fun value char => value * 10 + (char.toNat - 48)) value := by
    intro digits
    induction digits with
    | nil => exact fun value => Nat.le_refl value
    | cons char rest induction =>
        intro value
        refine Nat.le_trans ?_ (induction (value * 10 + (char.toNat - 48)))
        omega
  induction digits generalizing value with
  | nil => rfl
  | cons char rest induction =>
      rw [List.foldl_cons] at small ⊢
      have step := grows rest (value * 10 + (char.toNat - 48))
      rw [parseUint, if_pos (all char List.mem_cons_self)]
      simp only
      rw [if_pos (by omega)]
      exact induction (fun own member => all own (List.mem_cons_of_mem _ member)) _ small

/-- White space and numbers do not mix, in either language. -/
theorem space_of_asciiSpace {char : Char} (space : asciiSpace char = true) :
    GoText.isSpace char = true ∧ Text.isSpace char = true ∧ isMargin char = true ∧
      char.toNat < 128 := by
  simp only [asciiSpace, List.contains_iff_mem, List.mem_cons, List.not_mem_nil, or_false] at space
  rcases space with same | same | same | same | same | same <;>
    simp [GoText.isSpace, Text.isSpace, isMargin, same]

theorem visible_of_isDigit {char : Char} (digit : char.isDigit = true) :
    GoText.isSpace char = false ∧ Text.isSpace char = false := by
  rcases toNat_of_isDigit digit with ⟨low, high⟩
  constructor
  · simp only [GoText.isSpace, Bool.or_eq_false_iff, Bool.and_eq_false_iff,
      decide_eq_false_iff_not]
    omega
  · simp only [Text.isSpace, Bool.or_eq_false_iff, Bool.and_eq_false_iff,
      decide_eq_false_iff_not]
    omega

/-- The parts of a decimal text, once the white space is gone. -/
structure Core (core : Line) (value : Int) : Prop where
  parts : ∃ sign digits, core = (sign : Line) ++ digits ∧
    (sign = [] ∨ sign = ['+'] ∨ sign = ['-']) ∧ digits ≠ [] ∧
    (∀ char ∈ digits, char.isDigit = true) ∧
    value = if sign = ['-'] then -(Json.natOf digits : Int) else Json.natOf digits

theorem Core.visible {core : Line} {value : Int} (own : Core core value) :
    core ≠ [] ∧ ∀ char ∈ core, GoText.isSpace char = false ∧ Text.isSpace char = false := by
  rcases own.parts with ⟨sign, digits, rfl, signed, some_, all, same⟩
  refine ⟨by simp [some_], fun char member => ?_⟩
  rcases List.mem_append.mp member with member | member
  · rcases signed with rfl | rfl | rfl
    · cases member
    · cases List.mem_singleton.mp member
      decide
    · cases List.mem_singleton.mp member
      decide
  · exact visible_of_isDigit (all char member)

theorem Decimal.trimmed {text : Line} {value : Int} (decimal : Decimal text value) :
    ∃ core, Core core value ∧ trimSpace text = core ∧ (strip (.ofList text)).toList = core ∧
      trim text = core ∧ text.countP Char.isDigit = core.countP Char.isDigit := by
  rcases decimal.parts with ⟨before, sign, digits, after, rfl, front, back, rest⟩
  have own : Core (sign ++ digits) value := ⟨sign, digits, rfl, rest⟩
  have visible := own.visible
  refine ⟨_, own, ?_, ?_, ?_, ?_⟩
  · exact trim_between (fun char member => (space_of_asciiSpace (front char member)).1)
      (fun char member => (space_of_asciiSpace (back char member)).1)
      (fun char member => (visible.2 char member).1) visible.1
  · rw [strip, String.toList_ofList, String.toList_ofList]
    exact trim_between (fun char member => (space_of_asciiSpace (front char member)).2.1)
      (fun char member => (space_of_asciiSpace (back char member)).2.1)
      (fun char member => (visible.2 char member).2) visible.1
  · exact trim_between (fun char member => (space_of_asciiSpace (front char member)).2.2.1)
      (fun char member => (space_of_asciiSpace (back char member)).2.2.1)
      (fun char member => isMargin_of_visible (visible.2 char member).2) visible.1
  · have none : ∀ {spaces : Line}, (∀ char ∈ spaces, asciiSpace char = true) →
        spaces.countP Char.isDigit = 0 := by
      intro spaces each
      rw [List.countP_eq_zero]
      intro char member digit
      have space := (space_of_asciiSpace (each char member)).1
      rw [(visible_of_isDigit digit).1] at space
      cases space
    rw [List.countP_append, List.countP_append, none front, none back]
    omega

theorem Core.parseInt {core : Line} {value : Int} (own : Core core value)
    (small : |value| < 2 ^ 62) : GoText.parseInt core = .number value := by
  rcases own.parts with ⟨sign, digits, rfl, signed, some_, all, rfl⟩
  have bound : Json.natOf digits < 2 ^ 62 := by
    split at small
    · rw [abs_neg] at small
      exact_mod_cast small
    · exact_mod_cast small
  have read : parseUint 0 digits = .ok (Json.natOf digits) :=
    parseUint_digits all 0 (show Json.natOf digits < 2 ^ 64 by omega)
  have parsed : ∀ negative, parseSigned negative digits =
      .number (if negative then -(Json.natOf digits : Int) else Json.natOf digits) := by
    intro negative
    rw [parseSigned, if_neg some_, read]
    cases negative with
    | true => simp only [if_true]; rw [if_pos (by omega)]
    | false => simp only [Bool.false_eq_true, if_false]; rw [if_pos (by omega)]
  rcases signed with rfl | rfl | rfl
  · have unsigned : GoText.parseInt ([] ++ digits) = parseSigned false digits := by
      rcases digits with _ | ⟨first, more⟩
      · exact absurd rfl some_
      · have digit := all first List.mem_cons_self
        rw [List.nil_append, GoText.parseInt.eq_def]
        split
        · next equal => exact absurd (List.cons.inj equal).1 (Json.ne_of_isDigit digit (by decide))
        · next equal => exact absurd (List.cons.inj equal).1 (Json.ne_of_isDigit digit (by decide))
        · rfl
    rw [unsigned, parsed]
    simp
  · exact (parsed false).trans (by simp)
  · exact (parsed true).trans (by simp)

/-- Its digits are those of ASCII. -/
theorem Decimal.countP_isDecimal {text : Line} {value : Int} (decimal : Decimal text value) :
    text.countP isDecimal = text.countP Char.isDigit := by
  rcases decimal.parts with ⟨before, sign, digits, after, rfl, front, back, signed, _, all, _⟩
  apply List.countP_congr
  intro char member
  have ascii : char.toNat < 128 := by
    rcases List.mem_append.mp member with member | member
    · rcases List.mem_append.mp member with member | member
      · exact (space_of_asciiSpace (front char member)).2.2.2
      · rcases List.mem_append.mp member with member | member
        · rcases signed with rfl | rfl | rfl
          · cases member
          · rw [List.mem_singleton.mp member]
            decide
          · rw [List.mem_singleton.mp member]
            decide
        · exact Nat.lt_of_le_of_lt (toNat_of_isDigit (all char member)).2 (by decide)
    · exact (space_of_asciiSpace (back char member)).2.2.2
  rw [isDecimal_of_ascii ascii]

theorem Core.toInt {core : Line} {value : Int} (own : Core core value) {text : Line}
    (trimmed : trim text = core) (count : text.countP isDecimal = text.countP Char.isDigit) :
    intOfText (.ofList text) = if Long text then .error .valueError else .ok value := by
  rcases own.parts with ⟨sign, digits, rfl, signed, some_, all, rfl⟩
  have read : digitsFrom 0 true digits = some (Json.natOf digits) :=
    digitsFrom_digits all 0 true fun _ => some_
  have parsed : Text.parseInt (.ofList text) =
      some (if sign = ['-'] then -(Json.natOf digits : Int) else Json.natOf digits) := by
    rw [Text.parseInt, String.toList_ofList, trimmed]
    rcases signed with rfl | rfl | rfl
    · rcases digits with _ | ⟨first, more⟩
      · exact absurd rfl some_
      · have digit := all first List.mem_cons_self
        rw [List.nil_append]
        split
        · next equal => exact absurd (List.cons.inj equal).1 (Json.ne_of_isDigit digit (by decide))
        · next equal => exact absurd (List.cons.inj equal).1 (Json.ne_of_isDigit digit (by decide))
        · rw [read]
          rfl
    · simp only [List.singleton_append, read]
      rfl
    · simp only [List.singleton_append, read]
      rfl
  rw [intOfText, intOf, parsed, String.toList_ofList, count]
  by_cases long : Long text
  · rw [if_pos long, if_neg (Nat.not_le.mpr long)]
  · rw [if_neg long, if_pos (Nat.not_lt.mp long)]

/-! ## Texts without a digit -/

theorem not_isDigit {text : Line} (free : DigitFree text) {char : Char} (member : char ∈ text) :
    ¬char.isDigit = true := by
  intro digit
  have decimal := isDecimal_of_isDigit digit
  rw [free char member] at decimal
  cases decimal

theorem DigitFree.subset {text part : Line} (free : DigitFree text) (subset : part ⊆ text) :
    DigitFree part :=
  fun char member => free char (subset member)

theorem parseSigned_free {digits : Line} (free : DigitFree digits) (negative : Bool) :
    parseSigned negative digits = .syntaxError := by
  cases digits with
  | nil => rfl
  | cons first more =>
      rw [parseSigned, if_neg (by simp), parseUint,
        if_neg (not_isDigit free List.mem_cons_self)]

theorem parseInt_free {text : Line} (free : DigitFree text) :
    GoText.parseInt text = .syntaxError := by
  rw [GoText.parseInt.eq_def]
  split
  · exact parseSigned_free (free.subset (List.subset_cons_self _ _)) true
  · exact parseSigned_free (free.subset (List.subset_cons_self _ _)) false
  · exact parseSigned_free free false

theorem digitsFrom_free {digits : Line} (free : DigitFree digits) :
    digitsFrom 0 true digits = none := by
  cases digits with
  | nil => rfl
  | cons first more =>
      have none : decimalValue first = none :=
        Option.isNone_iff_eq_none.mp (by
          rw [← Option.not_isSome]
          exact congrArg not (free first List.mem_cons_self))
      rw [digitsFrom, none]
      exact if_neg (by simp)

theorem intOfText_free {text : Line} (free : DigitFree text) :
    intOfText (.ofList text) = .error .valueError := by
  have trimmed : DigitFree (trim text) :=
    free.subset (List.Subset.trans (List.rdropWhile_prefix _ _).subset
      (List.dropWhile_sublist _).subset)
  have none : Text.parseInt (.ofList text) = none := by
    rw [Text.parseInt, String.toList_ofList]
    split
    · next spelled =>
        rw [spelled] at trimmed
        rw [digitsFrom_free (trimmed.subset (List.subset_cons_self _ _))]
        rfl
    · next spelled =>
        rw [spelled] at trimmed
        rw [digitsFrom_free (trimmed.subset (List.subset_cons_self _ _))]
        rfl
    · rw [digitsFrom_free trimmed]
      rfl
  rw [intOfText, intOf, none, ite_self]

theorem number_free {text : Line} (free : DigitFree text) : number (some (.str text)) = 0 := by
  have trimmed : DigitFree (trimSpace text) := by
    apply free.subset
    exact List.Subset.trans
      (List.rdropWhile_prefix GoText.isSpace (text.dropWhile GoText.isSpace)).subset
      (List.dropWhile_sublist _).subset
  rw [number, parseInt_free trimmed]
  rfl

theorem number_decimal {text : Line} {value : Int} (decimal : Decimal text value)
    (small : |value| < 2 ^ 62) : number (some (.str text)) = value := by
  rcases decimal.trimmed with ⟨core, own, go, _⟩
  rw [number, go, own.parseInt small]
  rfl

theorem num_free {text : Line} (free : DigitFree text) :
    Reference.num (.str (.ofList text)) = .ok 0 := by
  simp only [Reference.num, Value.toInt, intOfText_free free]

theorem num_decimal {text : Line} {value : Int} (decimal : Decimal text value) :
    Reference.num (.str (.ofList text)) = .ok (if Long text then 0 else value) := by
  rcases decimal.trimmed with ⟨core, own, _, _, trimmed, _⟩
  have read := own.toInt trimmed decimal.countP_isDecimal
  by_cases long : Long text
  · simp only [Reference.num, Value.toInt, read, if_pos long]
  · simp only [Reference.num, Value.toInt, read, if_neg long]

/-- What Python makes of a field: what Go makes of it, or nothing of a text that is too long. -/
def counted : Option Tree → Int
  | some (.str text) => if Long text then 0 else number (some (.str text))
  | field => number field

/-- Both count the field alike, if it is no text that is too long, or one that counts nothing. -/
def Counts (field : Option Tree) : Prop :=
  ∀ text, field = some (.str text) → Long text → number field = 0

theorem counted_iff (field : Option Tree) : number field = counted field ↔ Counts field := by
  rcases field with _ | tree
  · exact iff_of_true rfl (by simp [Counts])
  cases tree with
  | str text =>
      simp only [counted, Counts, Option.some.injEq, Tree.str.injEq, forall_eq']
      by_cases long : Long text
      · simp [long]
      · simp [long]
  | null => exact iff_of_true rfl (by simp [Counts])
  | bool => exact iff_of_true rfl (by simp [Counts])
  | number => exact iff_of_true rfl (by simp [Counts])
  | list => exact iff_of_true rfl (by simp [Counts])
  | dict => exact iff_of_true rfl (by simp [Counts])

/-- What Python reads in a text. -/
theorem num_text {text : Line} (numeric : Numeric text) :
    Reference.num (.str (.ofList text)) = .ok (counted (some (.str text))) := by
  rcases numeric with free | ⟨value, decimal, small⟩
  · rw [num_free free, counted, number_free free, ite_self]
  · rw [num_decimal decimal, counted, number_decimal decimal small]

/-! ## The heartbeat file -/

theorem mem_universal_self {text : Line} {char : Char} {returned : Bool}
    (member : char ∈ Utf8.universal returned text) : char ∈ text ∨ char = '\n' := by
  induction text generalizing returned with
  | nil => cases member
  | cons own rest induction =>
      rw [Utf8.universal] at member
      split at member
      · rcases List.mem_cons.mp member with same | member
        · exact .inr same
        · exact (induction member).imp_left (List.mem_cons_of_mem _)
      split at member
      · exact (induction member).imp_left (List.mem_cons_of_mem _)
      · rcases List.mem_cons.mp member with rfl | member
        · exact .inl List.mem_cons_self
        · exact (induction member).imp_left (List.mem_cons_of_mem _)

theorem DigitFree.universal {text : Line} (free : DigitFree text) :
    DigitFree (Utf8.universal false text) := by
  intro char member
  rcases mem_universal_self member with own | rfl
  · exact free char own
  · decide

theorem Decimal.universal {text : Line} {value : Int} (decimal : Decimal text value) :
    Decimal (Utf8.universal false text) value := by
  rcases decimal.parts with ⟨before, sign, digits, after, rfl, front, back, rest⟩
  have own : Core (sign ++ digits) value := ⟨sign, digits, rfl, rest⟩
  have spaces : ∀ {spaces : Line}, (∀ char ∈ spaces, asciiSpace char = true) →
      ∀ char ∈ Utf8.universal false spaces, asciiSpace char = true := by
    intro spaces each char member
    rcases mem_universal_self member with own | rfl
    · exact each char own
    · decide
  have single : '\r' ∉ sign ++ digits := by
    intro member
    exact absurd (own.visible.2 _ member).1 (by decide)
  have lined : Utf8.universal false (before ++ (sign ++ digits) ++ after) =
      Utf8.universal false before ++ (sign ++ digits) ++ Utf8.universal false after := by
    have joined := Utf8.universal_append single after
    cases spelled : sign ++ digits with
    | nil => exact absurd spelled own.visible.1
    | cons first more =>
        have other : first ≠ '\n' := by
          rintro rfl
          exact absurd (own.visible.2 '\n' (by rw [spelled]; exact List.mem_cons_self)).1
            (by decide)
        rw [spelled] at joined
        rw [List.append_assoc, List.append_assoc, List.cons_append, Utf8.universal_split _ _ other,
          ← List.cons_append, joined]
  rw [lined]
  exact ⟨_, sign, digits, _, rfl, spaces front, spaces back, rest⟩

theorem countP_universal (text : Line) (returned : Bool) :
    (Utf8.universal returned text).countP Char.isDigit = text.countP Char.isDigit := by
  induction text generalizing returned with
  | nil => rfl
  | cons own rest induction =>
      rw [Utf8.universal]
      split
      · next same =>
          rw [List.countP_cons, List.countP_cons, induction, same]
          rfl
      split
      · next line =>
          rw [List.countP_cons, induction, line.1]
          rfl
      · rw [List.countP_cons, List.countP_cons, induction]

theorem Core.decimal {core : Line} {value : Int} (own : Core core value) : Decimal core value := by
  rcases own.parts with ⟨sign, digits, rfl, rest⟩
  exact ⟨[], sign, digits, [], by simp, by simp, by simp, rest⟩

/-- A heartbeat file is absent, or a text that is a decimal integer or has no digit. -/
def HeartbeatFile (file : Option Line) : Prop :=
  ∀ data ∈ file, ∃ text, Utf8.decode data = some text ∧ Numeric text

/-- What Python reads in the file. -/
theorem readHeartbeat_eq {file : Option Line} (domain : HeartbeatFile file) :
    Reference.readHeartbeat file = .ok (counted (some (.str (runes (file.getD []))))) := by
  rcases file with _ | data
  · rfl
  rcases domain data rfl with ⟨text, decoded, numeric⟩
  simp only [Reference.readHeartbeat, Utf8.opened, decoded, Option.map_some, Option.getD_some,
    runes_decode decoded]
  rcases numeric with free | ⟨value, decimal, small⟩
  · have stripped : DigitFree (strip (.ofList (Utf8.universal false text))).toList := by
      rw [strip, String.toList_ofList, String.toList_ofList]
      exact free.universal.subset (List.Subset.trans (List.rdropWhile_prefix _ _).subset
        (List.dropWhile_sublist _).subset)
    have read := num_free stripped
    rw [String.ofList_toList] at read
    rw [read, counted, number_free free, ite_self]
  · rcases decimal.universal.trimmed with ⟨core, own, _, stripped, _, count⟩
    have same : Long core ↔ Long text := by
      rw [Long, Long, ← count, countP_universal]
    have read := num_decimal own.decimal
    rw [← stripped, String.ofList_toList, stripped] at read
    simp only [read, counted, number_decimal decimal small, same]

/-! ## Values -/

def SmallNumeral (numeral : Numeral) : Prop := |numeral.exact| < 2 ^ 62

def NumericField : Option Tree → Prop
  | some (.number numeral) => SmallNumeral numeral
  | some (.str text) => Numeric text
  | _ => True

theorem exact_whole {numeral : Numeral} (whole : numeral.isWhole = true) :
    numeral.exact = numeral.wholeValue := by
  simp only [Numeral.isWhole, Bool.and_eq_true, Option.isNone_iff_eq_none] at whole
  simp [Numeral.exact, Numeral.wholeValue, whole]

theorem num_number {numeral : Numeral} (small : SmallNumeral numeral) :
    Reference.num numeral.value = .ok (number (some (.number numeral))) := by
  by_cases whole : numeral.isWhole = true
  · have fits : InInt64 numeral.wholeValue := by
      rw [SmallNumeral, exact_whole whole] at small
      have bound : |numeral.wholeValue| < 2 ^ 62 := by
        exact_mod_cast small
      rw [abs_lt] at bound
      constructor <;> omega
    have read : numeral.int64 = some numeral.wholeValue := by
      rw [Numeral.int64, whole, decide_eq_true fits]
      rfl
    simp only [Numeral.value, if_pos whole, number, read]
    rfl
  · rcases Double.nearest_small small with ⟨double, near, high, low⟩
    have unread : numeral.int64 = none := by
      rw [Numeral.int64]
      simp [whole]
    simp only [Numeral.value, if_neg whole, number, unread, Numeral.float64, near, Json.floatOf,
      Reference.num, Value.toInt]
    rw [if_pos ⟨high, low⟩]

/-- What Python reads in a field. -/
theorem num_field {field : Option Tree} (numeric : NumericField field) :
    Reference.num ((field.map valueOf).getD .none) = .ok (counted field) := by
  rcases field with _ | tree
  · rfl
  cases tree with
  | null => rfl
  | bool value => cases value <;> rfl
  | number numeral => exact num_number numeric
  | str text => exact num_text numeric
  | list items => rfl
  | dict fields => rfl

end Homelab.RunnerMetrics
