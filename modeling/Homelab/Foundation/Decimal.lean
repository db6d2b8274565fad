import Homelab.Foundation.JsonRoundTrip
import Homelab.Foundation.Lines

/-! # Decimal numbers in text

What `str` prints of a natural number, `int` reads back.
-/

namespace Homelab.Text

theorem digitsFrom_digits {digits : Line} (all : ∀ char ∈ digits, char.isDigit = true)
    (value : Nat) (pending : Bool) (some_ : pending = true → digits ≠ []) :
    digitsFrom value pending digits =
      some (digits.foldl (fun value char => value * 10 + (char.toNat - 48)) value) := by
  induction digits generalizing value pending with
  | nil =>
      cases pending with
      | true => exact absurd rfl (some_ rfl)
      | false => rfl
  | cons char rest induction =>
      rw [digitsFrom, decimalValue_of_isDigit (all char List.mem_cons_self), List.foldl_cons]
      exact induction (fun own member => all own (List.mem_cons_of_mem _ member)) _ false (by simp)

theorem isSpace_of_isDigit {char : Char} (digit : char.isDigit = true) :
    isSpace char = false := by
  simp only [Char.isDigit, Bool.and_eq_true, decide_eq_true_eq, ge_iff_le, UInt32.le_iff_toNat_le]
    at digit
  have low : 48 ≤ char.toNat := digit.1
  have high : char.toNat ≤ 57 := digit.2
  simp only [isSpace, Bool.or_eq_false_iff, Bool.and_eq_false_iff, decide_eq_false_iff_not]
  omega

theorem spaceless_toString (value : Nat) : Spaceless (toString value) := by
  intro char member
  rw [Json.toList_toString] at member
  exact isSpace_of_isDigit (Json.toDigits_isDigit value member)

theorem parseInt_toString (value : Nat) : parseInt (toString value) = some (value : Int) := by
  have digits : ∀ char ∈ (toString value).toList, char.isDigit = true := by
    rw [Json.toList_toString]
    exact fun char => Json.toDigits_isDigit value
  have some_ : (toString value).toList ≠ [] := by
    rw [Json.toList_toString]
    simp
  have read := digitsFrom_digits digits 0 true fun _ => some_
  have whole : (toString value).toList.foldl
      (fun value char => value * 10 + (char.toNat - 48)) 0 = value := by
    rw [Json.toList_toString]
    exact Json.natOf_toDigits value
  have visible : ∀ char ∈ (toString value).toList, isMargin char = false :=
    fun char member => isMargin_of_visible (spaceless_toString value char member)
  rw [parseInt, trim_visible visible]
  rw [whole] at read
  split
  · next rest equal =>
      exact absurd (digits '-' (equal ▸ List.mem_cons_self)) (by decide)
  · next rest equal =>
      exact absurd (digits '+' (equal ▸ List.mem_cons_self)) (by decide)
  · rw [read]
    rfl

/-! ## The digits of all scripts -/

def decimalOf (digits : Line) : Nat :=
  digits.foldl (fun value char => value * 10 + (decimalValue char).getD 0) 0

theorem decimalOf_digits {digits : Line} (all : ∀ char ∈ digits, char.isDigit = true) :
    decimalOf digits = Json.natOf digits := by
  have same : ∀ value : Nat,
      digits.foldl (fun value char => value * 10 + (decimalValue char).getD 0) value =
        digits.foldl (fun value char => value * 10 + (char.toNat - 48)) value := by
    induction digits with
    | nil => exact fun value => rfl
    | cons char rest induction =>
        intro value
        rw [List.foldl_cons, List.foldl_cons,
          decimalValue_of_isDigit (all char List.mem_cons_self)]
        exact induction (fun own member => all own (List.mem_cons_of_mem _ member)) _
  exact same 0

end Homelab.Text
