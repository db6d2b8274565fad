import Homelab.Foundation.GoJson
import Homelab.Foundation.JsonRoundTrip

/-! # What Go writes it reads back

`json.Marshal` of a struct with numbers and flags.
-/

namespace Homelab.GoJson

open Text Json GoText

/-! ## Numbers -/

/-- `%d`. -/
def decimal (value : Int) : Line := (toString value).toList

def wholeNumeral (value : Int) : Numeral :=
  ⟨decimal value, decide (value < 0), Nat.toDigits 10 value.natAbs, none, none⟩

theorem wholeNumeral_value (value : Int) : (wholeNumeral value).wholeValue = value := by
  simp only [Numeral.wholeValue, Numeral.sign, wholeNumeral, natOf_toDigits, decide_eq_true_eq]
  split <;> omega

theorem wholeNumeral_int64 {value : Int} (fits : InInt64 value) :
    (wholeNumeral value).int64 = some value := by
  have whole : (wholeNumeral value).isWhole = true := rfl
  rw [Numeral.int64, whole, wholeNumeral_value, decide_eq_true fits]
  rfl

theorem wholeNumeral_uint64 (counter : UInt64) :
    (wholeNumeral (counter.toNat : Int)).uint64 = some counter := by
  have whole : (wholeNumeral (counter.toNat : Int)).isWhole = true := rfl
  have small := counter.toNat_lt
  have natural : ¬(counter.toNat : Int) < 0 := by omega
  have positive : (wholeNumeral (counter.toNat : Int)).negative = false := decide_eq_false natural
  rw [Numeral.uint64, whole, positive, wholeNumeral_value, decide_eq_true (by omega)]
  simp

theorem Numeral.int64_fits {numeral : Numeral} {value : Int}
    (read : numeral.int64 = some value) : InInt64 value := by
  rw [Numeral.int64] at read
  split at read
  · next fits =>
      cases read
      simp only [Bool.and_eq_true, decide_eq_true_iff] at fits
      exact fits.2
  · cases read

/-- An integer field holds a number that Go holds. -/
theorem readInt_fits {tree : Tree} {current value : Int} (start : InInt64 current)
    (read : readInt tree current = some value) : InInt64 value := by
  cases tree with
  | null =>
      cases read
      exact start
  | number numeral => exact Numeral.int64_fits read
  | _ => cases read

theorem scanNumeral_toDigits (value : Nat) {rest : Line} (ends : Ends rest) :
    scanNumeral (Nat.toDigits 10 value ++ rest) =
      some (⟨Nat.toDigits 10 value, false, Nat.toDigits 10 value, none, none⟩, rest) := by
  have unsigned : ∀ more, Nat.toDigits 10 value ++ rest ≠ '-' :: more := by
    intro more equal
    rcases toDigits_cons value with ⟨first, others, digits, digit⟩
    rw [digits, List.cons_append] at equal
    exact ne_of_isDigit digit (by decide) (List.cons.inj equal).1
  rw [scanNumeral.eq_def]
  split
  next signed =>
    split at signed
    · next more equal => exact absurd equal (unsigned more)
    · injection signed with negative chars
      subst negative chars
      rw [scanWhole_toDigits value ends]
      simp [scanFraction_ends ends, scanExponent_ends ends]

theorem scanNumeral_minus (value : Nat) {rest : Line} (ends : Ends rest) :
    scanNumeral ('-' :: (Nat.toDigits 10 value ++ rest)) =
      some (⟨'-' :: Nat.toDigits 10 value, true, Nat.toDigits 10 value, none, none⟩, rest) := by
  have written : List.take (('-' :: (Nat.toDigits 10 value ++ rest)).length - rest.length)
      ('-' :: (Nat.toDigits 10 value ++ rest)) = '-' :: Nat.toDigits 10 value := by
    rw [← List.cons_append, List.length_append, Nat.add_sub_cancel, List.take_left]
  simp only [scanNumeral, scanWhole_toDigits value ends, scanFraction_ends ends,
    scanExponent_ends ends, written]

theorem scanNumeral_decimal (value : Int) {rest : Line} (ends : Ends rest) :
    scanNumeral (decimal value ++ rest) = some (wholeNumeral value, rest) := by
  cases value with
  | ofNat value =>
      have spelled : decimal (Int.ofNat value) = Nat.toDigits 10 value := toList_toString value
      rw [spelled, scanNumeral_toDigits value ends, wholeNumeral, spelled]
      rfl
  | negSucc value =>
      rw [decimal, toList_toString_negSucc, List.cons_append, scanNumeral_minus _ ends,
        wholeNumeral, decimal, toList_toString_negSucc]
      simp

theorem decimal_cons (value : Int) :
    ∃ first more, decimal value = first :: more ∧ (first.isDigit = true ∨ first = '-') := by
  cases value with
  | ofNat value =>
      rcases toDigits_cons value with ⟨first, more, digits, digit⟩
      exact ⟨first, more, (toList_toString value).trans digits, .inl digit⟩
  | negSucc value => exact ⟨'-', _, toList_toString_negSucc value, .inr rfl⟩

theorem ne_of_decimal {first char : Char} (number : first.isDigit = true ∨ first = '-')
    (other : char.isDigit = false) (minus : char ≠ '-') : first ≠ char := by
  rcases number with digit | rfl
  · exact ne_of_isDigit digit other
  · exact minus.symm

/-! ## Values -/

/-- The text reads as the value, whatever follows it. -/
structure Reads (depth : Nat) (chars : Line) (tree : Tree) : Prop where
  visible : ∃ first more, chars = first :: more ∧ Json.isSpace first = false
  scan : ∀ steps rest, chars.length < steps → Ends rest →
    scanValue steps depth (chars ++ rest) = some (tree, rest)

theorem reads_decimal (depth : Nat) (value : Int) :
    Reads depth (decimal value) (.number (wholeNumeral value)) := by
  have read := fun (rest : Line) (ends : Ends rest) => scanNumeral_decimal value ends
  rcases decimal_cons value with ⟨first, more, spelled, number⟩
  rw [spelled] at read ⊢
  have other : ∀ char : Char, char.isDigit = false → char ≠ '-' → first ≠ char :=
    fun char => ne_of_decimal number
  refine ⟨⟨first, more, rfl, by simp [Json.isSpace, other]⟩, fun steps rest long ends => ?_⟩
  rcases steps with _ | steps
  · exact absurd long (Nat.not_lt_zero _)
  have named : ∀ constant ∈ constants, ¬constant.1.isPrefixOf (first :: more ++ rest) := by
    intro constant member starts
    simp only [constants, List.mem_cons, List.not_mem_nil, or_false] at member
    rcases member with rfl | rfl | rfl <;> simp [List.isPrefixOf] at starts <;>
      exact other _ (by decide) (by decide) starts.1.symm
  rw [List.cons_append, scanValue]
  · rw [← List.cons_append, scanAtom, List.find?_eq_none.mpr named]
    simp only
    rw [read rest ends]
    rfl
  all_goals
    intro more' equal
    exact other _ (by decide) (by decide) (List.cons.inj equal).1

theorem reads_bool (depth : Nat) (value : Bool) :
    Reads depth (if value then "true" else "false").toList (.bool value) := by
  cases value <;>
    refine ⟨⟨_, _, rfl, by decide⟩, fun steps rest long ends => ?_⟩ <;>
    rcases steps with _ | steps <;> first | exact absurd long (Nat.not_lt_zero _) | rfl

theorem reads_text (depth : Nat) {text : Line} (plain : ∀ char ∈ text, Plain char) :
    Reads depth ('"' :: (text ++ ['"'])) (.str text) := by
  refine ⟨⟨_, _, rfl, by decide⟩, fun steps rest long ends => ?_⟩
  rcases steps with _ | steps
  · exact absurd long (Nat.not_lt_zero _)
  rw [List.cons_append, List.append_assoc, scanValue]
  exact congrArg (Option.map fun pair => (Tree.str pair.1, pair.2))
    (scanString_plains plain rest)

theorem Reads.skip {depth : Nat} {chars : Line} {tree : Tree} (reads : Reads depth chars tree)
    (rest : Line) : skip (chars ++ rest) = chars ++ rest := by
  rcases reads.visible with ⟨first, more, rfl, visible⟩
  exact skip_visible _ visible _

/-! ## Objects -/

def fieldText (field : String × Line) : Line :=
  '"' :: (field.1.toList ++ '"' :: ':' :: field.2)

def fieldsText : List (String × Line) → Line
  | [] => ['\x7d']
  | [field] => fieldText field ++ ['\x7d']
  | field :: rest => fieldText field ++ ',' :: fieldsText rest

/-- `json.Marshal` of a struct whose fields are written. -/
def object (fields : List (String × Line)) : Line := '\x7b' :: fieldsText fields

theorem fieldsText_quote (field : String × Line) (rest : List (String × Line)) :
    ∃ more, fieldsText (field :: rest) = '"' :: more := by
  cases rest with
  | nil => exact ⟨_, rfl⟩
  | cons second others => exact ⟨_, rfl⟩

theorem scanFields_field {depth steps : Nat} {name : String} {chars : Line} {tree : Tree}
    (plain : ∀ char ∈ name.toList, Plain char) (reads : Reads depth chars tree)
    (long : chars.length < steps) (mark : Char) (rest : Line)
    (visible : Json.isSpace mark = false)
    (other : mark.isDigit = false ∧ mark ≠ '.' ∧ mark ≠ 'e' ∧ mark ≠ 'E') :
    scanFields (steps + 1) depth (fieldText (name, chars) ++ mark :: rest) =
      match mark :: rest with
      | ',' :: rest => do
          let (fields, rest) ← scanFields steps depth (skip rest)
          return ((name.toList, tree) :: fields, rest)
      | '\x7d' :: rest => some ([(name.toList, tree)], rest)
      | _ => none := by
  have read := reads.scan steps (mark :: rest) long (ends_of_mark rest other)
  simp only [fieldText, List.cons_append, List.append_assoc]
  rw [scanFields]
  simp only [bind, Option.bind, scanString_plains plain, skip_visible ':' (by decide),
    reads.skip, read, skip_visible mark visible]
  rfl

/-- Fields are read in the order in which they are written. -/
theorem scanFields_fieldsText {depth : Nat} {fields : List (String × Line × Tree)}
    (some_ : fields ≠ [])
    (each : ∀ field ∈ fields, (∀ char ∈ field.1.toList, Plain char) ∧
      Reads depth field.2.1 field.2.2) (steps : Nat) (rest : Line)
    (long : (fieldsText (fields.map fun field => (field.1, field.2.1))).length < steps) :
    scanFields steps depth (fieldsText (fields.map fun field => (field.1, field.2.1)) ++ rest) =
      some (fields.map fun field => (field.1.toList, field.2.2), rest) := by
  induction fields generalizing steps with
  | nil => exact absurd rfl some_
  | cons field others induction =>
      have here := each field List.mem_cons_self
      rcases steps with _ | steps
      · exact absurd long (Nat.not_lt_zero _)
      cases others with
      | nil =>
          simp only [List.map_cons, List.map_nil, fieldsText, fieldText, List.length_append,
            List.length_cons] at long
          have short : field.2.1.length < steps := by omega
          have step := scanFields_field here.1 here.2 short '\x7d' rest (by decide) (by decide)
          simp only [List.map_cons, List.map_nil, fieldsText, List.append_assoc]
          exact step
      | cons second others =>
          have later := induction (by simp)
            (fun own member => each own (List.mem_cons_of_mem _ member)) steps
          rcases fieldsText_quote (second.1, second.2.1)
            (others.map fun field => (field.1, field.2.1)) with ⟨more, equal⟩
          simp only [List.map_cons, fieldsText] at long later ⊢
          rw [equal] at long later ⊢
          simp only [fieldText, List.length_append, List.length_cons] at long
          have read := later (by simp only [List.length_cons]; omega)
          have short : field.2.1.length < steps := by omega
          have step := scanFields_field here.1 here.2 short ',' ('"' :: (more ++ rest))
            (by decide) (by decide)
          rw [List.append_assoc, List.cons_append, List.cons_append, step]
          simp only [skip_visible '"' (show Json.isSpace '"' = false from rfl)]
          rw [← List.cons_append, read]
          rfl

/-- A struct reads as what is written. -/
theorem reads_object {depth : Nat} {fields : List (String × Line × Tree)}
    (some_ : fields ≠ [])
    (each : ∀ field ∈ fields, (∀ char ∈ field.1.toList, Plain char) ∧
      Reads depth field.2.1 field.2.2) :
    Reads (depth + 1) (object (fields.map fun field => (field.1, field.2.1)))
      (.dict (fields.map fun field => (field.1.toList, field.2.2))) where
  visible := ⟨'\x7b', _, rfl, by decide⟩
  scan steps rest long ends := by
    rcases steps with _ | steps
    · exact absurd long (Nat.not_lt_zero _)
    rw [object, List.length_cons] at long
    have read := scanFields_fieldsText some_ each steps rest (by omega)
    cases fields with
    | nil => exact absurd rfl some_
    | cons field others =>
        rcases fieldsText_quote (field.1, field.2.1)
          (others.map fun field => (field.1, field.2.1)) with ⟨more, equal⟩
        simp only [object, List.map_cons] at read ⊢
        rw [equal] at read ⊢
        rw [List.cons_append, scanValue.eq_def]
        simp only
        rw [List.cons_append, skip_visible '"' (show Json.isSpace '"' = false from rfl)]
        rw [List.cons_append] at read
        exact congrArg (Option.map fun (fields, rest) => (Tree.dict fields, rest)) read

/-- A map without entries. -/
theorem reads_empty (depth : Nat) : Reads (depth + 1) (object []) (.dict []) where
  visible := ⟨'\x7b', _, rfl, by decide⟩
  scan steps rest long ends := by
    rcases steps with _ | steps
    · exact absurd long (Nat.not_lt_zero _)
    · rfl

/-- A struct or a map, with or without entries. -/
theorem reads_fields {depth : Nat} {fields : List (String × Line × Tree)}
    (each : ∀ field ∈ fields, (∀ char ∈ field.1.toList, Plain char) ∧
      Reads depth field.2.1 field.2.2) :
    Reads (depth + 1) (object (fields.map fun field => (field.1, field.2.1)))
      (.dict (fields.map fun field => (field.1.toList, field.2.2))) := by
  cases fields with
  | nil => exact reads_empty depth
  | cons field others => exact reads_object (List.cons_ne_nil _ _) each

/-- A written value is the whole text. -/
theorem parse_of_reads {chars after : Line} {tree : Tree}
    (reads : Reads maxNestingDepth chars tree) (spaces : ∀ char ∈ after, Json.isSpace char = true) :
    parse (chars ++ after) = some tree := by
  have skipped : Json.skip after = [] := by
    rw [Json.skip, List.dropWhile_eq_nil_iff]
    exact spaces
  have ends : Ends after := by
    simpa using ends_of_spaces spaces ends_nil
  have read := reads.scan (2 * (chars ++ after).length + 1) after (by simp; omega) ends
  simp only [parse, parseWithin, reads.skip, read, bind, Option.bind, skipped]
  rfl

/-! ## How long it is -/

/-- The length of a struct or a map, from the lengths of its values. -/
def objectWidth (fields : List (String × Nat)) : Nat :=
  2 + ((fields.map fun field => field.1.length + 4 + field.2).sum - 1)

theorem length_fieldText (field : String × Line) :
    (fieldText field).length = field.1.length + 3 + field.2.length := by
  simp only [fieldText, List.length_cons, List.length_append, String.length_toList]
  omega

theorem length_object (fields : List (String × Line)) :
    (object fields).length = objectWidth (fields.map fun field => (field.1, field.2.length)) := by
  have rest : (fieldsText fields).length =
      1 + ((fields.map fun field => field.1.length + 4 + field.2.length).sum - 1) := by
    induction fields with
    | nil => rfl
    | cons field others induction =>
        have own := length_fieldText field
        cases others with
        | nil =>
            simp only [fieldsText, List.length_append, own, List.length_singleton, List.map_cons,
              List.map_nil, List.sum_cons, List.sum_nil]
            omega
        | cons second others =>
            simp only [fieldsText, List.length_append, List.length_cons, own, List.map_cons,
              List.sum_cons] at induction ⊢
            omega
  rw [object, List.length_cons, rest, objectWidth, List.map_map]
  simp only [Function.comp_def]
  omega

theorem objectWidth_mono {fields wider : List (String × Nat)}
    (less : (fields.map fun field => field.1.length + 4 + field.2).sum ≤
      (wider.map fun field => field.1.length + 4 + field.2).sum) :
    objectWidth fields ≤ objectWidth wider := by
  simp only [objectWidth]
  omega

theorem length_decimal_mono {less more : Nat} (le : less ≤ more) :
    (decimal less).length ≤ (decimal more).length := by
  have spelled (value : Nat) : decimal (value : Int) = Nat.toDigits 10 value :=
    toList_toString value
  rw [spelled, spelled]
  have small : more < 10 ^ (Nat.toDigits 10 more).length :=
    (Nat.length_toDigits_le_iff (by decide) (Nat.length_toDigits_pos)).mp (Nat.le_refl _)
  exact (Nat.length_toDigits_le_iff (by decide) (Nat.length_toDigits_pos)).mpr (by omega)

/-! ## What is written is ASCII -/

theorem toNat_of_isDigit {char : Char} (digit : char.isDigit = true) :
    48 ≤ char.toNat ∧ char.toNat ≤ 57 := by
  simp only [Char.isDigit, Bool.and_eq_true, decide_eq_true_iff] at digit
  exact digit

theorem decimal_ascii (value : Int) : Utf8.Ascii (decimal value) := by
  have digits : ∀ number, Utf8.Ascii (Nat.toDigits 10 number) := by
    intro number char member
    have bounds := toNat_of_isDigit (toDigits_isDigit number member)
    omega
  cases value with
  | ofNat value =>
      rw [decimal, show (toString (Int.ofNat value)).toList = Nat.toDigits 10 value from
        toList_toString value]
      exact digits value
  | negSucc value =>
      rw [decimal, toList_toString_negSucc]
      intro char member
      rcases List.mem_cons.mp member with rfl | member
      · decide
      · exact digits _ char member

theorem object_ascii {fields : List (String × Line)}
    (each : ∀ field ∈ fields, Utf8.Ascii field.1.toList ∧ Utf8.Ascii field.2) :
    Utf8.Ascii (object fields) := by
  have quoted : ∀ field ∈ fields, Utf8.Ascii (fieldText field) := by
    intro field member
    have own := each field member
    have tail : Utf8.Ascii ('"' :: ':' :: field.2) :=
      (show Utf8.Ascii ['"', ':'] by decide).append own.2
    exact (show Utf8.Ascii ['"'] by decide).append (own.1.append tail)
  have rest : Utf8.Ascii (fieldsText fields) := by
    clear each
    induction fields with
    | nil => exact (by decide : Utf8.Ascii ['\x7d'])
    | cons field others induction =>
        have here := quoted field List.mem_cons_self
        have later := induction fun own member => quoted own (List.mem_cons_of_mem _ member)
        cases others with
        | nil => exact here.append (by decide)
        | cons second others =>
            exact here.append ((show Utf8.Ascii [','] by decide).append later)
  exact (show Utf8.Ascii ['\x7b'] by decide).append rest

end Homelab.GoJson
