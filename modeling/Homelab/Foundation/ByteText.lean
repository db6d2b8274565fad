import Mathlib.Data.Nat.Digits.Defs
import Mathlib.Tactic.IntervalCases

/-! # Byte strings and decimal text

Go strings are byte sequences. This file gives the parts of Go's `strings`,
`strconv` and `fmt` packages that read and write decimal numbers and
whitespace-separated words. White space is the Unicode one, recognised by its
UTF-8 encodings: no encoding of a white-space rune starts inside another valid
rune, so scanning byte by byte finds the same words as scanning runes.
-/

namespace Homelab

abbrev Bytes := List UInt8

instance : LawfulBEq Bytes := inferInstanceAs (LawfulBEq (List UInt8))

def ascii (text : String) : Bytes :=
  text.toList.map fun char => char.toNat.toUInt8

example : ascii "ok" = [111, 107] := by decide

namespace ByteText

/-! ## White space -/

/-- The UTF-8 encodings of the white-space runes (`unicode.IsSpace`). -/
def spaces : List Bytes :=
  [[9], [10], [11], [12], [13], [32], [0xC2, 0x85], [0xC2, 0xA0],
    [0xE1, 0x9A, 0x80], [0xE2, 0x80, 0x80], [0xE2, 0x80, 0x81],
    [0xE2, 0x80, 0x82], [0xE2, 0x80, 0x83], [0xE2, 0x80, 0x84],
    [0xE2, 0x80, 0x85], [0xE2, 0x80, 0x86], [0xE2, 0x80, 0x87],
    [0xE2, 0x80, 0x88], [0xE2, 0x80, 0x89], [0xE2, 0x80, 0x8A],
    [0xE2, 0x80, 0xA8], [0xE2, 0x80, 0xA9], [0xE2, 0x80, 0xAF],
    [0xE2, 0x81, 0x9F], [0xE3, 0x80, 0x80]]

/-- The length of the pattern the text starts with, zero if there is none. -/
def leading (patterns : List Bytes) (text : Bytes) : Nat :=
  match patterns.find? fun pattern => pattern.isPrefixOf text with
  | some pattern => pattern.length
  | none => 0

/-- Drop patterns from the front. `skip` counts the bytes of the current
pattern still to be dropped. -/
def trimFront (patterns : List Bytes) : (skip : Nat) → Bytes → Bytes
  | _, [] => []
  | skip + 1, _ :: rest => trimFront patterns skip rest
  | 0, byte :: rest =>
      match leading patterns (byte :: rest) with
      | 0 => byte :: rest
      | width + 1 => trimFront patterns width rest

/-- `strings.TrimSpace`. -/
def trimSpace (text : Bytes) : Bytes :=
  (trimFront (spaces.map List.reverse) 0 (trimFront spaces 0 text).reverse).reverse

def flush (word : Bytes) : List Bytes :=
  if word = [] then [] else [word]

def fieldsFrom : (skip : Nat) → (word : Bytes) → Bytes → List Bytes
  | _, word, [] => flush word
  | skip + 1, word, _ :: rest => fieldsFrom skip word rest
  | 0, word, byte :: rest =>
      match leading spaces (byte :: rest) with
      | 0 => fieldsFrom 0 (word ++ [byte]) rest
      | width + 1 => flush word ++ fieldsFrom width [] rest

/-- `strings.Fields`. -/
def fields (text : Bytes) : List Bytes := fieldsFrom 0 [] text

/-- `strings.Split` at one separator byte. -/
def split (separator : UInt8) : Bytes → List Bytes
  | [] => [[]]
  | byte :: rest =>
      if byte = separator then [] :: split separator rest
      else
        match split separator rest with
        | [] => [[byte]]
        | head :: tail => (byte :: head) :: tail

example : fields (ascii " a  bc\n") = [ascii "a", ascii "bc"] := by decide

example : split 124 (ascii "a||b") = [ascii "a", [], ascii "b"] := by decide

/-! ## Decimal numbers -/

def isDigit (byte : UInt8) : Bool := 48 ≤ byte && byte ≤ 57

def digitOf (digit : Nat) : UInt8 := (48 + digit).toUInt8

def decimalNat (number : Nat) : Bytes :=
  if number = 0 then [48] else (Nat.digits 10 number).reverse.map digitOf

def decimal (number : Int) : Bytes :=
  if number < 0 then 45 :: decimalNat number.natAbs
  else decimalNat number.natAbs

def parseNat (text : Bytes) : Option Nat :=
  if text ≠ [] ∧ text.all isDigit then
    some (Nat.ofDigits 10 (text.reverse.map fun byte => byte.toNat - 48))
  else none

/-- `strconv.ParseInt(text, 10, 64)`, with its errors as `none`. -/
def parseInt (text : Bytes) : Option Int :=
  match text with
  | [] => none
  | sign :: digits =>
      if sign = 45 then
        (parseNat digits).bind fun number =>
          if number ≤ 2 ^ 63 then some (-(number : Int)) else none
      else
        (parseNat (if sign = 43 then digits else sign :: digits)).bind
          fun number => if number < 2 ^ 63 then some (number : Int) else none

example : decimal (-120) = ascii "-120" := by decide

example : parseInt (ascii "+7") = some 7 := by decide

theorem digitOf_isDigit {digit : Nat} (small : digit < 10) :
    isDigit (digitOf digit) = true := by
  interval_cases digit <;> decide

theorem digitOf_value {digit : Nat} (small : digit < 10) :
    (digitOf digit).toNat - 48 = digit := by
  interval_cases digit <;> decide

theorem decimalNat_ne_nil (number : Nat) : decimalNat number ≠ [] := by
  unfold decimalNat
  split
  · simp
  · rename_i nonzero
    simpa [Nat.digits_eq_nil_iff_eq_zero] using nonzero

theorem decimalNat_digits (number : Nat) :
    ∀ byte ∈ decimalNat number, isDigit byte = true := by
  intro byte member
  unfold decimalNat at member
  split at member
  · simp only [List.mem_singleton] at member
    subst member
    decide
  · rcases List.mem_map.mp member with ⟨digit, digitMember, rfl⟩
    exact digitOf_isDigit
      (Nat.digits_lt_base (by decide) (List.mem_reverse.mp digitMember))

/-- Reading back what `%d` printed for a natural number. -/
theorem parseNat_decimalNat (number : Nat) :
    parseNat (decimalNat number) = some number := by
  have allDigits : (decimalNat number).all isDigit = true :=
    List.all_eq_true.mpr (decimalNat_digits number)
  rw [parseNat, if_pos ⟨decimalNat_ne_nil number, allDigits⟩]
  congr 1
  unfold decimalNat
  split
  · rename_i zero
    subst zero
    rfl
  · rw [← List.map_reverse, List.reverse_reverse, List.map_map]
    have values : (Nat.digits 10 number).map
        ((fun byte : UInt8 => byte.toNat - 48) ∘ digitOf) =
          (Nat.digits 10 number).map id := by
      apply List.map_congr_left
      intro digit member
      exact digitOf_value (Nat.digits_lt_base (by decide) member)
    rw [values, List.map_id, Nat.ofDigits_digits]

/-- Reading back what `%d` printed for a nonnegative `int64`. -/
theorem parseInt_decimal {number : Int} (nonnegative : 0 ≤ number)
    (bound : number < 2 ^ 63) : parseInt (decimal number) = some number := by
  have notNegative : ¬number < 0 := by omega
  rw [decimal, if_neg notNegative]
  cases text : decimalNat number.natAbs with
  | nil => exact absurd text (decimalNat_ne_nil _)
  | cons head tail =>
      have headDigit : isDigit head = true :=
        decimalNat_digits number.natAbs head (by simp [text])
      have notMinus : head ≠ 45 := by
        rintro rfl
        simp [isDigit] at headDigit
      have notPlus : head ≠ 43 := by
        rintro rfl
        simp [isDigit] at headDigit
      have parsed := parseNat_decimalNat number.natAbs
      rw [text] at parsed
      have small : number.natAbs < 2 ^ 63 := by omega
      have value : (number.natAbs : Int) = number := by omega
      simp only [parseInt, if_neg notMinus, if_neg notPlus, parsed,
        Option.bind_some, if_pos small, value]

/-- What `ParseInt` accepts of a printed natural number fits in an `int64`. -/
theorem parseInt_decimal_lt {number value : Int} (nonnegative : 0 ≤ number)
    (parsed : parseInt (decimal number) = some value) : number < 2 ^ 63 := by
  have notNegative : ¬number < 0 := by omega
  rw [decimal, if_neg notNegative] at parsed
  cases text : decimalNat number.natAbs with
  | nil => exact absurd text (decimalNat_ne_nil _)
  | cons head tail =>
      have headDigit : isDigit head = true :=
        decimalNat_digits number.natAbs head (by simp [text])
      have notMinus : head ≠ 45 := by
        rintro rfl
        simp [isDigit] at headDigit
      have notPlus : head ≠ 43 := by
        rintro rfl
        simp [isDigit] at headDigit
      have read := parseNat_decimalNat number.natAbs
      rw [text] at read
      simp only [text, parseInt, if_neg notMinus, if_neg notPlus, read,
        Option.bind_some] at parsed
      split at parsed
      · omega
      · cases parsed

/-! ## Words on lines -/

/-- No space begins with the byte. -/
def plain (byte : UInt8) : Bool := spaces.all fun space => decide (space.head? ≠ some byte)

theorem leading_of_plain {byte : UInt8} (holds : plain byte = true) (rest : Bytes) :
    leading spaces (byte :: rest) = 0 := by
  have unmatched : spaces.find? (fun pattern => pattern.isPrefixOf (byte :: rest)) =
      none := by
    rw [List.find?_eq_none]
    intro pattern member isPattern
    have nonempty : ∀ pattern ∈ spaces, pattern ≠ [] := by decide +kernel
    cases pattern with
    | nil => exact nonempty [] member rfl
    | cons head tail =>
        have different := of_decide_eq_true (List.all_eq_true.mp holds _ member)
        rw [List.isPrefixOf_iff_prefix, List.cons_prefix_cons] at isPattern
        exact different (congrArg some isPattern.1)
  rw [leading, unmatched]

theorem fieldsFrom_plain {own : Bytes} (holds : ∀ byte ∈ own, plain byte = true)
    (word rest : Bytes) :
    fieldsFrom 0 word (own ++ rest) = fieldsFrom 0 (word ++ own) rest := by
  induction own generalizing word with
  | nil => simp
  | cons byte own induction =>
      have first := leading_of_plain (holds byte (by simp)) (own ++ rest)
      simp only [List.cons_append, fieldsFrom, first]
      rw [induction (fun other member => holds other (by simp [member]))]
      simp

theorem fieldsFrom_newline (word rest : Bytes) :
    fieldsFrom 0 word (10 :: rest) = flush word ++ fieldsFrom 0 [] rest := by
  have width : leading spaces (10 :: rest) = 1 := by
    simp [leading, spaces, List.find?, List.isPrefixOf]
  simp only [fieldsFrom, width]

theorem fields_line {own : Bytes} (holds : ∀ byte ∈ own, plain byte = true) (visible : own ≠ [])
    (rest : Bytes) : fields (own ++ 10 :: rest) = own :: fields rest := by
  rw [fields, fieldsFrom_plain holds, List.nil_append, fieldsFrom_newline, flush, if_neg visible]
  rfl

theorem plain_of_digit {byte : UInt8} (digit : isDigit byte = true) : plain byte = true := by
  have heads : ∀ space ∈ spaces, ∀ head ∈ space.head?, isDigit head = false := by decide +kernel
  refine List.all_eq_true.mpr fun space member => decide_eq_true fun same => ?_
  rw [heads space member byte same] at digit
  cases digit

theorem fields_decimal_line {number : Int} (nonnegative : 0 ≤ number)
    (rest : Bytes) :
    fields (decimal number ++ 10 :: rest) = decimal number :: fields rest := by
  have notNegative : ¬number < 0 := by omega
  rw [decimal, if_neg notNegative]
  exact fields_line (fun byte member => plain_of_digit (decimalNat_digits _ byte member))
    (decimalNat_ne_nil _) rest

end ByteText

end Homelab
