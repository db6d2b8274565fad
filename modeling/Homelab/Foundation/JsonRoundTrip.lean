import Homelab.Foundation.Json
import Mathlib.Data.List.TakeDrop

/-! # What is written is read back

A text reads as a value when the scanner takes exactly that text off whatever follows.
Texts, whole numbers, and lists and objects of what reads again read.
-/

namespace Homelab.Json

open Python

/-! ## Texts -/

theorem hexDigit_hexChar {digit : Nat} (small : digit < 16) :
    hexDigit (hexChar digit) = some digit := by
  revert digit
  decide

theorem hexCode_unicodeEscape {code : Nat} (small : code < 0x10000) :
    hexCode [hexChar (code / 4096 % 16), hexChar (code / 256 % 16), hexChar (code / 16 % 16),
      hexChar (code % 16)] = some code := by
  have digit : ∀ value, hexDigit (hexChar (value % 16)) = some (value % 16) :=
    fun value => hexDigit_hexChar (Nat.mod_lt _ (by decide))
  simp only [hexCode, List.foldlM_cons, List.foldlM_nil, digit, Option.map_some, pure,
    Option.bind_some, bind]
  congr 1
  omega

/-- A character stands for itself inside a quoted text. -/
def Plain (char : Char) : Prop := char ≠ '"' ∧ char ≠ '\\' ∧ 32 ≤ char.toNat

instance (char : Char) : Decidable (Plain char) := inferInstanceAs (Decidable (_ ∧ _))

theorem scanString_plain {char : Char} (plain : Plain char) (rest : List Char) :
    scanString none (char :: rest) =
      (scanString none rest).map fun (text, rest) => (char :: text, rest) := by
  rcases plain with ⟨quote, backslash, visible⟩
  rw [scanString.eq_def]
  split
  · next impossible => cases impossible
  · next equal => exact absurd (List.cons.inj equal).1 quote
  · next equal => exact absurd (List.cons.inj equal).1 backslash
  · next equal => exact absurd (List.cons.inj equal).1 backslash
  · next equal =>
      rcases List.cons.inj equal with ⟨rfl, rfl⟩
      rw [if_neg (by omega)]
      rfl

theorem scanString_plains {chars : List Char} (plain : ∀ char ∈ chars, Plain char)
    (rest : List Char) : scanString none (chars ++ '"' :: rest) = some (chars, rest) := by
  induction chars with
  | nil => rfl
  | cons char more induction =>
      rw [List.cons_append, scanString_plain (plain char List.mem_cons_self),
        induction fun other member => plain other (List.mem_cons_of_mem _ member)]
      rfl

/-- What `\u` and four digits add. -/
theorem scanString_unicodeEscape {code : Nat} (small : code < 0x10000) (pending : Option Nat)
    (rest : List Char) :
    scanString pending (unicodeEscape code ++ rest) =
      match pending, lowHalf code with
      | some high, true =>
          (scanString none rest).map fun (text, rest) => (joined high code :: text, rest)
      | _, _ =>
          if highHalf code then
            (scanString (some code) rest).map fun (text, rest) => (lone pending ++ text, rest)
          else
            (scanString none rest).map fun (text, rest) =>
              (lone pending ++ whole code :: text, rest) := by
  simp only [unicodeEscape, List.cons_append, List.nil_append, scanString,
    hexCode_unicodeEscape small]
  rfl

theorem scanString_single {char : Char} (small : char.toNat < 0x10000) (rest : List Char) :
    scanString none (unicodeEscape char.toNat ++ rest) =
      (scanString none rest).map fun (text, rest) => (char :: text, rest) := by
  have valid : char.toNat < 0xD800 ∨ 0xDFFF < char.toNat := by
    rcases char.valid with low | high
    · exact .inl low
    · exact .inr high.1
  have high : highHalf char.toNat = false := by
    simp only [highHalf, Bool.and_eq_false_iff, decide_eq_false_iff_not]
    omega
  have low : lowHalf char.toNat = false := by
    simp only [lowHalf, Bool.and_eq_false_iff, decide_eq_false_iff_not]
    omega
  have same : whole char.toNat = char := by simp [whole, low]
  rw [scanString_unicodeEscape small, low, high]
  simp only [same]
  rfl

theorem scanString_pair {char : Char} (large : 0x10000 ≤ char.toNat) (rest : List Char) :
    scanString none (unicodeEscape (0xD800 + (char.toNat - 0x10000) / 0x400) ++
        (unicodeEscape (0xDC00 + (char.toNat - 0x10000) % 0x400) ++ rest)) =
      (scanString none rest).map fun (text, rest) => (char :: text, rest) := by
  have bounded : char.toNat < 0x110000 := by
    rcases char.valid with low | high
    · exact Nat.lt_trans low (by decide)
    · exact high.2
  have high : highHalf (0xD800 + (char.toNat - 0x10000) / 0x400) = true := by
    simp only [highHalf, Bool.and_eq_true, decide_eq_true_iff]
    omega
  have low : lowHalf (0xDC00 + (char.toNat - 0x10000) % 0x400) = true := by
    simp only [lowHalf, Bool.and_eq_true, decide_eq_true_iff]
    omega
  have same : joined (0xD800 + (char.toNat - 0x10000) / 0x400)
      (0xDC00 + (char.toNat - 0x10000) % 0x400) = char := by
    rw [joined]
    refine Eq.trans (congrArg Char.ofNat ?_) (Char.ofNat_toNat char)
    omega
  rw [scanString_unicodeEscape (by omega), high]
  simp only [if_true]
  rw [scanString_unicodeEscape (by omega), low]
  simp only [same, Option.map_map]
  rfl

theorem scanString_escape (char : Char) (rest : List Char) :
    scanString none (escape char ++ rest) =
      (scanString none rest).map fun (text, rest) => (char :: text, rest) := by
  have named : ∀ code : Nat, char.toNat = code → char = .ofNat code := fun code same =>
    (Char.ofNat_toNat char).symm.trans (congrArg Char.ofNat same)
  by_cases quote : char = '"'
  · subst quote
    rfl
  by_cases backslash : char = '\\'
  · subst backslash
    rfl
  rw [escape, if_neg quote, if_neg backslash]
  split
  · next same =>
      subst same
      rfl
  · split
    · next same =>
        subst same
        rfl
    · split
      · next same =>
          subst same
          rfl
      · split
        · next same =>
            rw [named 8 same]
            rfl
        · split
          · next same =>
              rw [named 12 same]
              rfl
          · split
            · next visible => exact scanString_plain ⟨quote, backslash, visible.1⟩ rest
            · split
              · next small => exact scanString_single small rest
              · next large =>
                  rw [List.append_assoc]
                  exact scanString_pair (by omega) rest

theorem scanString_escaped (chars rest : List Char) :
    scanString none (chars.flatMap escape ++ '"' :: rest) = some (chars, rest) := by
  induction chars with
  | nil => rfl
  | cons char more induction =>
      rw [List.flatMap_cons, List.append_assoc, scanString_escape, induction]
      rfl

/-! ## Numbers -/

/-- What follows a value does not go on with a number. -/
def Ends (rest : List Char) : Prop :=
  ∀ char more, rest = char :: more →
    char.isDigit = false ∧ char ≠ '.' ∧ char ≠ 'e' ∧ char ≠ 'E'

theorem natOf_append (front : List Char) (last : Char) :
    natOf (front ++ [last]) = natOf front * 10 + (last.toNat - 48) := by
  simp [natOf]

theorem natOf_toDigits (value : Nat) : natOf (Nat.toDigits 10 value) = value := by
  induction value using Nat.strong_induction_on with
  | _ value induction =>
      rw [Nat.toDigits_eq_if (by decide)]
      split
      · next small =>
          simp [natOf, Nat.toNat_digitChar_sub_48_of_lt_ten small]
      · next large =>
          rw [natOf_append, induction _ (by omega),
            Nat.toNat_digitChar_sub_48_of_lt_ten (Nat.mod_lt _ (by decide))]
          omega

/-- No whole number but zero starts with a zero. -/
theorem toDigits_head {value : Nat} (positive : 0 < value) :
    ∃ first more, Nat.toDigits 10 value = first :: more ∧ first ≠ '0' := by
  induction value using Nat.strong_induction_on with
  | _ value induction =>
      rw [Nat.toDigits_eq_if (by decide)]
      split
      · next small =>
          refine ⟨_, [], rfl, fun zero => ?_⟩
          have code := Nat.toNat_digitChar_of_lt_ten small
          rw [zero] at code
          have : '0'.toNat = 48 := rfl
          omega
      · next large =>
          rcases induction (value / 10) (by omega) (by omega) with ⟨first, more, digits, nonzero⟩
          exact ⟨first, more ++ _, by rw [digits]; rfl, nonzero⟩

theorem toDigits_isDigit (value : Nat) {char : Char} (member : char ∈ Nat.toDigits 10 value) :
    char.isDigit = true :=
  Nat.isDigit_of_mem_toDigits (by decide) (by decide) member

theorem toDigits_cons (value : Nat) :
    ∃ first more, Nat.toDigits 10 value = first :: more ∧ first.isDigit = true := by
  cases digits : Nat.toDigits 10 value with
  | nil => exact absurd digits (by simp)
  | cons first more =>
      exact ⟨first, more, rfl,
        toDigits_isDigit value (by rw [digits]; exact List.mem_cons_self)⟩

theorem ne_of_isDigit {first char : Char} (digit : first.isDigit = true)
    (other : char.isDigit = false) : first ≠ char := by
  rintro rfl
  rw [digit] at other
  cases other

theorem span_digits {digits rest : List Char} (all : ∀ char ∈ digits, char.isDigit = true)
    (ends : Ends rest) : (digits ++ rest).span Char.isDigit = (digits, rest) := by
  have stop : ∀ rest, Ends rest → rest.span Char.isDigit = ([], rest) := by
    intro rest ends
    cases rest with
    | nil => rfl
    | cons char more =>
        simp [List.span_eq_takeWhile_dropWhile, (ends char more rfl).1]
  have stopped := stop rest ends
  simp only [List.span_eq_takeWhile_dropWhile, Prod.mk.injEq] at stopped ⊢
  rw [List.takeWhile_append_of_pos all, List.dropWhile_append_of_pos all, stopped.1, stopped.2]
  simp

theorem scanWhole_toDigits (value : Nat) {rest : List Char} (ends : Ends rest) :
    scanWhole (Nat.toDigits 10 value ++ rest) = some (Nat.toDigits 10 value, rest) := by
  rcases Nat.eq_zero_or_pos value with zero | positive
  · subst zero
    rfl
  · have spanned := span_digits (fun char => toDigits_isDigit value) ends
    rcases toDigits_head positive with ⟨first, more, digits, nonzero⟩
    rw [digits] at spanned ⊢
    rw [List.cons_append, scanWhole.eq_def]
    split
    · next equal => exact absurd (List.cons.inj equal).1 nonzero
    · rw [← List.cons_append, spanned]

theorem scanFraction_ends {rest : List Char} (ends : Ends rest) :
    scanFraction rest = (none, rest) := by
  cases rest with
  | nil => rfl
  | cons char more =>
      rw [scanFraction.eq_def]
      split
      · next equal => exact absurd (List.cons.inj equal).1 (ends char more rfl).2.1
      · rfl

theorem scanExponent_ends {rest : List Char} (ends : Ends rest) :
    scanExponent rest = (none, rest) := by
  cases rest with
  | nil => rfl
  | cons char more =>
      rcases ends char more rfl with ⟨_, _, small, large⟩
      simp [scanExponent, small, large]

theorem scanNumber_toDigits {value : Nat} (short : (Nat.toDigits 10 value).length ≤ 4300)
    {rest : List Char} (ends : Ends rest) :
    scanNumber (Nat.toDigits 10 value ++ rest) = .ok (.int value, rest) := by
  have unsigned : ∀ more, Nat.toDigits 10 value ++ rest ≠ '-' :: more := by
    intro more equal
    rcases toDigits_cons value with ⟨first, others, digits, digit⟩
    rw [digits, List.cons_append] at equal
    exact ne_of_isDigit digit (by decide) (List.cons.inj equal).1
  rw [scanNumber.eq_def]
  split
  next signed =>
    split at signed
    · next more equal => exact absurd equal (unsigned more)
    · injection signed with negative chars
      subst negative chars
      rw [scanWhole_toDigits value ends]
      simp [scanFraction_ends ends, scanExponent_ends ends, short, natOf_toDigits]

/-! ## Values -/

/-- The text reads as the value, whatever follows it. -/
structure Reads (depth : Nat) (chars : List Char) (value : Value) : Prop where
  visible : ∃ first more, chars = first :: more ∧ isSpace first = false ∧ first ≠ ']'
  scan : ∀ steps rest, chars.length < steps → Ends rest →
    scanValue steps depth (chars ++ rest) = .ok (value, rest)

def Quotes (raw text : List Char) : Prop :=
  ∀ rest, scanString none (raw ++ '"' :: rest) = some (text, rest)

theorem quotes_escaped (text : String) : Quotes (text.toList.flatMap escape) text.toList :=
  scanString_escaped text.toList

theorem quotes_plain {chars : List Char} (plain : ∀ char ∈ chars, Plain char) :
    Quotes chars chars := scanString_plains plain

theorem Quotes.quoted {raw text : List Char} (quotes : Quotes raw text) (rest : List Char) :
    quoted (raw ++ '"' :: rest) = .ok (.ofList text, rest) := by
  rw [Json.quoted, quotes]

theorem Quotes.reads {raw text : List Char} (quotes : Quotes raw text) (depth : Nat) :
    Reads depth ('"' :: raw ++ ['"']) (.str (.ofList text)) where
  visible := ⟨'"', raw ++ ['"'], rfl, by decide, by decide⟩
  scan steps rest long ends := by
    rcases steps with _ | steps
    · exact absurd long (Nat.not_lt_zero _)
    · rw [List.append_assoc, List.cons_append, List.singleton_append, scanValue, quotes.quoted]
      rfl

theorem reads_dumpText (depth : Nat) (text : String) :
    Reads depth (dumpText text) (.str text) := by
  have reads := (quotes_escaped text).reads depth
  rwa [String.ofList_toList] at reads

theorem scanAtom_toDigits (value : Nat) (rest : List Char) :
    scanAtom (Nat.toDigits 10 value ++ rest) = scanNumber (Nat.toDigits 10 value ++ rest) := by
  rcases toDigits_cons value with ⟨first, more, digits, digit⟩
  rw [digits]
  have initial : ∀ char : Char, char.isDigit = false → char ≠ first :=
    fun char other => (ne_of_isDigit digit other).symm
  have other : ∀ constant ∈ constants, ¬constant.1.isPrefixOf (first :: more ++ rest) := by
    intro constant member starts
    simp only [constants, List.mem_cons, List.not_mem_nil, or_false] at member
    rcases member with rfl | rfl | rfl | rfl | rfl | rfl <;>
      simp [List.isPrefixOf] at starts <;> exact initial _ (by decide) starts.1
  rw [scanAtom, List.find?_eq_none.mpr other]

theorem reads_nat (depth : Nat) {value : Nat}
    (short : (Nat.toDigits 10 value).length ≤ 4300) :
    Reads depth (Nat.toDigits 10 value) (.int value) := by
  have read : ∀ rest, Ends rest →
      scanAtom (Nat.toDigits 10 value ++ rest) = .ok (.int value, rest) := fun rest ends =>
    (scanAtom_toDigits value rest).trans (scanNumber_toDigits short ends)
  rcases toDigits_cons value with ⟨first, more, digits, digit⟩
  rw [digits] at read ⊢
  have other : ∀ char : Char, char.isDigit = false → first ≠ char :=
    fun char other => ne_of_isDigit digit other
  refine ⟨⟨first, more, rfl, ?_, other _ (by decide)⟩, fun steps rest long ends => ?_⟩
  · simp [isSpace, other]
  · rcases steps with _ | steps
    · exact absurd long (Nat.not_lt_zero _)
    · rw [List.cons_append, scanValue.eq_def]
      simp only
      split
      · next equal => exact absurd (List.cons.inj equal).1 (other _ (by decide))
      · next equal => exact absurd (List.cons.inj equal).1 (other _ (by decide))
      · next equal => exact absurd (List.cons.inj equal).1 (other _ (by decide))
      · exact read rest ends

theorem toList_toString (value : Nat) : (toString value).toList = Nat.toDigits 10 value := by
  rw [Nat.toString_eq_repr, Nat.repr, String.toList_ofList]

/-- The number after a minus sign. -/
theorem scanNumber_minus {value : Nat} (short : (Nat.toDigits 10 value).length ≤ 4300)
    {rest : List Char} (ends : Ends rest) :
    scanNumber ('-' :: (Nat.toDigits 10 value ++ rest)) = .ok (.int (-value), rest) := by
  simp only [scanNumber, scanWhole_toDigits value ends]
  simp [scanFraction_ends ends, scanExponent_ends ends, short, natOf_toDigits]

theorem scanAtom_minus (value : Nat) (rest : List Char) :
    scanAtom ('-' :: (Nat.toDigits 10 value ++ rest)) =
      scanNumber ('-' :: (Nat.toDigits 10 value ++ rest)) := by
  rcases toDigits_cons value with ⟨first, more, digits, digit⟩
  rw [digits]
  have other : ∀ constant ∈ constants,
      ¬constant.1.isPrefixOf ('-' :: (first :: more ++ rest)) := by
    intro constant member starts
    simp only [constants, List.mem_cons, List.not_mem_nil, or_false] at member
    rcases member with rfl | rfl | rfl | rfl | rfl | rfl <;>
      simp [List.isPrefixOf] at starts
    exact ne_of_isDigit digit (by decide) starts.1.symm
  rw [scanAtom, List.find?_eq_none.mpr other]

theorem toList_toString_negSucc (value : Nat) :
    (toString (Int.negSucc value)).toList = '-' :: Nat.toDigits 10 (value + 1) := by
  have spelled : toString (Int.negSucc value) = "-" ++ toString (value + 1) := rfl
  rw [spelled, String.toList_append, toList_toString]
  rfl

/-- What `%d` prints. -/
theorem reads_int (depth : Nat) {value : Int}
    (short : (Nat.toDigits 10 value.natAbs).length ≤ 4300) :
    Reads depth (toString value).toList (.int value) := by
  cases value with
  | ofNat value =>
      have spelled : (toString (Int.ofNat value)).toList = Nat.toDigits 10 value :=
        toList_toString value
      rw [spelled]
      exact reads_nat depth short
  | negSucc value =>
      rw [toList_toString_negSucc]
      change (Nat.toDigits 10 (value + 1)).length ≤ 4300 at short
      refine ⟨⟨'-', _, rfl, by decide, by decide⟩, fun steps rest long ends => ?_⟩
      rcases steps with _ | steps
      · exact absurd long (Nat.not_lt_zero _)
      · rw [List.cons_append, scanValue]
        · rw [scanAtom_minus, scanNumber_minus short ends]
          rfl
        all_goals simp

theorem reads_null (depth : Nat) : Reads depth ['n', 'u', 'l', 'l'] .none where
  visible := ⟨'n', ['u', 'l', 'l'], rfl, by decide, by decide⟩
  scan steps rest long ends := by
    rcases steps with _ | steps
    · exact absurd long (Nat.not_lt_zero _)
    · rfl

/-! ## Lists and objects -/

theorem ends_nil : Ends [] := fun char more equal => by cases equal

theorem ends_of_mark {mark : Char} (rest : List Char)
    (other : mark.isDigit = false ∧ mark ≠ '.' ∧ mark ≠ 'e' ∧ mark ≠ 'E') :
    Ends (mark :: rest) := by
  intro char more equal
  rw [← (List.cons.inj equal).1]
  exact other

theorem skip_visible (first : Char) (visible : isSpace first = false) (rest : List Char) :
    skip (first :: rest) = first :: rest := by
  rw [skip, List.dropWhile_cons_of_neg (by simp [visible])]

theorem skip_append {gap : List Char} (spaces : ∀ char ∈ gap, isSpace char = true)
    (rest : List Char) : skip (gap ++ rest) = skip rest := by
  rw [skip, List.dropWhile_append_of_pos spaces, skip]

theorem Reads.skip {depth : Nat} {chars : List Char} {value : Value}
    (reads : Reads depth chars value) (rest : List Char) :
    skip (chars ++ rest) = chars ++ rest := by
  rcases reads.visible with ⟨first, more, rfl, visible, _⟩
  exact skip_visible _ visible _

theorem Reads.length_pos {depth : Nat} {chars : List Char} {value : Value}
    (reads : Reads depth chars value) : 0 < chars.length := by
  rcases reads.visible with ⟨first, more, rfl, _⟩
  exact Nat.succ_pos _

/-- The text of the items of a list and its closing bracket. -/
inductive Items (depth : Nat) : List Char → List Value → Prop
  | last {chars : List Char} {value : Value} :
      Reads depth chars value → Items depth (chars ++ [']']) [value]
  | more {chars text : List Char} {value : Value} {values : List Value} :
      Reads depth chars value → Items depth text values →
      Items depth (chars ++ ',' :: text) (value :: values)

theorem Items.visible {depth : Nat} {text : List Char} {values : List Value}
    (items : Items depth text values) :
    ∃ first more, text = first :: more ∧ isSpace first = false ∧ first ≠ ']' := by
  cases items with
  | last reads =>
      rcases reads.visible with ⟨first, more, rfl, visible⟩
      exact ⟨first, _, rfl, visible⟩
  | more reads _ =>
      rcases reads.visible with ⟨first, more, rfl, visible⟩
      exact ⟨first, _, rfl, visible⟩

theorem Items.skip {depth : Nat} {text : List Char} {values : List Value}
    (items : Items depth text values) (rest : List Char) :
    skip (text ++ rest) = text ++ rest := by
  rcases items.visible with ⟨first, more, rfl, visible, _⟩
  exact skip_visible _ visible _

theorem Items.scan {depth : Nat} {text : List Char} {values : List Value}
    (items : Items depth text values) (steps : Nat) (rest : List Char)
    (long : text.length < steps) :
    scanItems steps depth (text ++ rest) = .ok (values, rest) := by
  induction items generalizing steps with
  | @last chars value reads =>
      rcases steps with _ | steps
      · exact absurd long (Nat.not_lt_zero _)
      · rw [List.length_append, List.length_singleton] at long
        rw [scanItems, List.append_assoc, List.singleton_append,
          reads.scan steps _ (by omega) (ends_of_mark _ (by decide))]
        simp only [bind, Except.bind, skip_visible ']' (by decide)]
        rfl
  | @more chars text value values reads items induction =>
      rcases steps with _ | steps
      · exact absurd long (Nat.not_lt_zero _)
      · rw [List.length_append, List.length_cons] at long
        rw [scanItems, List.append_assoc, List.cons_append,
          reads.scan steps _ (by omega) (ends_of_mark _ (by decide))]
        simp only [bind, Except.bind, skip_visible ',' (by decide), items.skip]
        have positive := reads.length_pos
        rw [induction steps (by omega)]
        rfl

theorem Items.reads {depth : Nat} {text : List Char} {values : List Value}
    (items : Items depth text values) : Reads (depth + 1) ('[' :: text) (.list values) where
  visible := ⟨'[', text, rfl, by decide, by decide⟩
  scan steps rest long ends := by
    rcases steps with _ | steps
    · exact absurd long (Nat.not_lt_zero _)
    · rw [List.length_cons] at long
      have read := items.scan steps rest (by omega)
      have kept := items.skip rest
      rcases items.visible with ⟨first, more, rfl, _, open_⟩
      rw [List.cons_append, scanValue.eq_def]
      simp only
      rw [kept]
      split
      · next equal => exact absurd (List.cons.inj equal).1 open_
      · rw [read]
        rfl

theorem reads_empty_list (depth : Nat) : Reads (depth + 1) ['[', ']'] (.list []) where
  visible := ⟨'[', [']'], rfl, by decide, by decide⟩
  scan steps rest long ends := by
    rcases steps with _ | steps
    · exact absurd long (Nat.not_lt_zero _)
    · rfl

def putAll (fields : List (String × Value)) (into : List (String × Value)) :
    List (String × Value) :=
  fields.foldl (fun into field => Table.put field.1 field.2 into) into

theorem no_spaces : ∀ char ∈ ([] : List Char), isSpace char = true := by simp

/-- The text of the fields of an object and its closing brace. -/
inductive Members (depth : Nat) : List Char → List (String × Value) → Prop
  | last {raw name gap chars after : List Char} {value : Value} :
      Quotes raw name → (∀ char ∈ gap, isSpace char = true) → Reads depth chars value →
      (∀ char ∈ after, isSpace char = true) →
      Members depth ('"' :: raw ++ '"' :: ':' :: gap ++ chars ++ after ++ ['\x7d'])
        [(.ofList name, value)]
  | more {raw name gap chars after text : List Char} {value : Value}
      {fields : List (String × Value)} :
      Quotes raw name → (∀ char ∈ gap, isSpace char = true) → Reads depth chars value →
      (∀ char ∈ after, isSpace char = true) → Members depth text fields →
      Members depth ('"' :: raw ++ '"' :: ':' :: gap ++ chars ++ ',' :: after ++ text)
        ((.ofList name, value) :: fields)

theorem Members.skip {depth : Nat} {text : List Char} {fields : List (String × Value)}
    (members : Members depth text fields) (rest : List Char) :
    skip (text ++ rest) = text ++ rest := by
  cases members <;> exact skip_visible _ (by decide) _

theorem ends_of_spaces {gap rest : List Char} (spaces : ∀ char ∈ gap, isSpace char = true)
    (ends : Ends rest) : Ends (gap ++ rest) := by
  cases gap with
  | nil => exact ends
  | cons space more =>
      apply ends_of_mark
      have space := spaces space List.mem_cons_self
      simp only [isSpace, Bool.or_eq_true, decide_eq_true_iff] at space
      rcases space with ((rfl | rfl) | rfl) | rfl <;> decide

/-- The name and the value of one field. -/
theorem scanFields_step {depth steps : Nat} {raw name gap chars : List Char} {value : Value}
    (after : List Char) (mark : Char) (rest : List Char) (into : List (String × Value))
    (quotes : Quotes raw name)
    (gapSpaces : ∀ char ∈ gap, isSpace char = true) (reads : Reads depth chars value)
    (afterSpaces : ∀ char ∈ after, isSpace char = true) (long : chars.length < steps)
    (visible : isSpace mark = false)
    (other : mark.isDigit = false ∧ mark ≠ '.' ∧ mark ≠ 'e' ∧ mark ≠ 'E') :
    scanFields (steps + 1) depth into
        ('"' :: (raw ++ '"' :: ':' :: (gap ++ (chars ++ (after ++ mark :: rest))))) =
      match mark :: rest with
      | ',' :: rest => scanFields steps depth (Table.put (.ofList name) value into) (skip rest)
      | '\x7d' :: rest => .ok (Table.put (.ofList name) value into, rest)
      | _ => .error .valueError := by
  have read := reads.scan steps (after ++ mark :: rest) long
    (ends_of_spaces afterSpaces (ends_of_mark rest other))
  rw [scanFields]
  simp only [bind, Except.bind, quotes.quoted, skip_visible ':' (by decide),
    skip_append gapSpaces, reads.skip, read, skip_append afterSpaces, skip_visible mark visible]
  rfl

theorem Members.scan {depth : Nat} {text : List Char} {fields : List (String × Value)}
    (members : Members depth text fields) (steps : Nat) (into : List (String × Value))
    (rest : List Char) (long : text.length < steps) :
    scanFields steps depth into (text ++ rest) = .ok (putAll fields into, rest) := by
  induction members generalizing steps into with
  | @last raw name gap chars after value quotes gapSpaces reads afterSpaces =>
      rcases steps with _ | steps
      · exact absurd long (Nat.not_lt_zero _)
      · have long : chars.length < steps := by
          simp only [List.length_append, List.length_cons] at long
          omega
        have step := scanFields_step after '\x7d' rest into quotes gapSpaces reads
          afterSpaces long (by decide) (by decide)
        simp only [List.append_assoc, List.cons_append] at step ⊢
        exact step
  | @more raw name gap chars after text value fields quotes gapSpaces reads afterSpaces members
      induction =>
      rcases steps with _ | steps
      · exact absurd long (Nat.not_lt_zero _)
      · have long : chars.length < steps ∧ text.length < steps := by
          simp only [List.length_append, List.length_cons] at long
          omega
        have step := scanFields_step [] ',' (after ++ (text ++ rest)) into quotes gapSpaces
          reads no_spaces long.1 (by decide) (by decide)
        simp only [List.append_assoc, List.cons_append, List.nil_append] at step ⊢
        rw [step, skip_append afterSpaces, members.skip]
        exact induction steps _ long.2

/-- An object, with space before its first field. -/
theorem Members.reads {depth : Nat} {text gap : List Char} {fields : List (String × Value)}
    (members : Members depth text fields) (spaces : ∀ char ∈ gap, isSpace char = true) :
    Reads (depth + 1) ('\x7b' :: gap ++ text) (.dict (putAll fields [])) where
  visible := ⟨'\x7b', gap ++ text, rfl, by decide, by decide⟩
  scan steps rest long ends := by
    rcases steps with _ | steps
    · exact absurd long (Nat.not_lt_zero _)
    · have read := members.scan steps [] rest (by
        simp only [List.length_append, List.length_cons] at long
        omega)
      have kept : Json.skip (gap ++ text ++ rest) = text ++ rest := by
        rw [List.append_assoc, skip_append spaces, members.skip]
      have opened : ∀ more, text ++ rest ≠ '\x7d' :: more := by
        intro more equal
        cases members <;> exact absurd (List.cons.inj equal).1 (by decide)
      rw [List.cons_append, List.cons_append, scanValue.eq_def]
      simp only
      rw [kept]
      split
      · next equal => exact absurd equal (opened _)
      · rw [read]
        rfl

theorem reads_empty_dict (depth : Nat) :
    Reads (depth + 1) ['\x7b', '\x7d'] (.dict []) where
  visible := ⟨'\x7b', ['\x7d'], rfl, by decide, by decide⟩
  scan steps rest long ends := by
    rcases steps with _ | steps
    · exact absurd long (Nat.not_lt_zero _)
    · rfl

theorem put_fresh {name : String} {value : Value} {fields : List (String × Value)}
    (fresh : name ∉ fields.map Prod.fst) :
    Table.put name value fields = fields ++ [(name, value)] := by
  induction fields with
  | nil => rfl
  | cons field rest induction =>
      simp only [List.map_cons, List.mem_cons, not_or] at fresh
      rw [Table.put, if_neg (Ne.symm fresh.1), induction fresh.2]
      rfl

/-- Fields with different names stay as they are. -/
theorem putAll_nil {fields : List (String × Value)}
    (distinct : (fields.map Prod.fst).Nodup) : putAll fields [] = fields := by
  have appended : ∀ into : List (String × Value),
      ((into ++ fields).map Prod.fst).Nodup → putAll fields into = into ++ fields := by
    clear distinct
    induction fields with
    | nil => simp [putAll]
    | cons field rest induction =>
        intro into distinct
        have fresh : field.1 ∉ into.map Prod.fst := by
          rw [List.map_append, List.nodup_append] at distinct
          exact fun member => distinct.2.2 _ member _ (by simp) rfl
        rw [putAll, List.foldl_cons, put_fresh fresh, ← putAll,
          induction _ (by simpa using distinct)]
        simp
  exact appended [] distinct

/-! ## What `dumps` writes -/

theorem items_intercalate {depth : Nat} {first : List Char × Value}
    {rest : List (List Char × Value)}
    (each : ∀ item ∈ first :: rest, Reads depth item.1 item.2) :
    Items depth ([','].intercalate ((first :: rest).map Prod.fst) ++ [']'])
      ((first :: rest).map Prod.snd) := by
  induction rest generalizing first with
  | nil => simpa using Items.last (each first List.mem_cons_self)
  | cons second rest induction =>
      have items := Items.more (each first List.mem_cons_self)
        (induction fun item member => each item (List.mem_cons_of_mem _ member))
      simpa [List.intercalate] using items

theorem reads_dumpList {depth : Nat} (items : List (List Char × Value))
    (each : ∀ item ∈ items, Reads depth item.1 item.2) :
    Reads (depth + 1) (dumpList (items.map Prod.fst)) (.list (items.map Prod.snd)) := by
  cases items with
  | nil => exact reads_empty_list depth
  | cons first rest => exact (items_intercalate each).reads

theorem members_intercalate {depth : Nat} {first : String × List Char × Value}
    {rest : List (String × List Char × Value)}
    (each : ∀ field ∈ first :: rest, Reads depth field.2.1 field.2.2) :
    Members depth
      ([','].intercalate ((first :: rest).map fun field =>
        dumpText field.1 ++ ':' :: field.2.1) ++ ['\x7d'])
      ((first :: rest).map fun field => (field.1, field.2.2)) := by
  induction rest generalizing first with
  | nil =>
      have members := Members.last (quotes_escaped first.1) no_spaces
        (each first List.mem_cons_self) no_spaces
      simpa [dumpText] using members
  | cons second rest induction =>
      have members := Members.more (quotes_escaped first.1) no_spaces
        (each first List.mem_cons_self) no_spaces
        (induction fun field member => each field (List.mem_cons_of_mem _ member))
      simpa [dumpText, List.intercalate] using members

theorem reads_dumpDict {depth : Nat} (fields : List (String × List Char × Value))
    (each : ∀ field ∈ fields, Reads depth field.2.1 field.2.2)
    (distinct : (fields.map Prod.fst).Nodup) :
    Reads (depth + 1) (dumpDict (fields.map fun field => (field.1, field.2.1)))
      (.dict (fields.map fun field => (field.1, field.2.2))) := by
  cases fields with
  | nil => exact reads_empty_dict depth
  | cons first rest =>
      have reads := (members_intercalate each).reads no_spaces
      rw [putAll_nil (by simpa [Function.comp_def] using distinct)] at reads
      simpa [dumpDict, Function.comp_def] using reads

theorem intercalate_concat (separator last : List Char) (items : List (List Char)) :
    ∃ front, separator.intercalate (items ++ [last]) = front ++ last := by
  induction items with
  | nil => exact ⟨[], by simp⟩
  | cons item rest induction =>
      rcases induction with ⟨front, equal⟩
      refine ⟨item ++ separator ++ front, ?_⟩
      rw [List.cons_append, List.intercalate_cons_of_ne_nil (by simp), equal]
      simp

/-- An object ends with its last value. -/
theorem dumpDict_concat (fields : List (String × List Char)) (name : String)
    (chars : List Char) :
    ∃ front, dumpDict (fields ++ [(name, chars)]) = front ++ chars ++ ['\x7d'] := by
  rcases intercalate_concat [','] (dumpText name ++ ':' :: chars)
    (fields.map fun field => dumpText field.1 ++ ':' :: field.2) with ⟨front, equal⟩
  refine ⟨'\x7b' :: front ++ dumpText name ++ [':'], ?_⟩
  rw [dumpDict, List.map_append, List.map_singleton, equal]
  simp

/-! ## Whole texts -/

theorem loads_of_reads {depth : Nat} {chars after : List Char} {value : Value}
    (reads : Reads depth chars value) (spaces : ∀ char ∈ after, isSpace char = true) :
    loads depth (.ofList (chars ++ after)) = .ok value := by
  have skipped : skip after = [] := by
    rw [skip, List.dropWhile_eq_nil_iff]
    exact spaces
  have ends : Ends after := by
    simpa using ends_of_spaces spaces ends_nil
  have read := reads.scan (2 * (chars ++ after).length + 1) after (by simp; omega) ends
  simp only [loads, String.toList_ofList, reads.skip, read, bind, Except.bind, skipped]
  rfl

end Homelab.Json
