import Homelab.SplitDns.Resolution

/-! # The order of names is the order of their labels

A name lies under another one if and only if its list of labels ends with the other's, so a
route covers exactly the names it is a suffix of, label by label.
-/

namespace Homelab.SplitDns

open Text

/-! ## Pieces of a text -/

theorem splitChars_eq_splitOn (separator : Char) (chars : List Char) :
    splitChars separator chars = chars.splitOn separator := by
  induction chars with
  | nil => rfl
  | cons head rest induction =>
      rw [splitChars, List.splitOn_cons_eq_if_modifyHead, induction]
      simp only [beq_iff_eq]
      split
      · rfl
      · cases pieces : rest.splitOn separator with
        | nil => exact absurd pieces (List.splitOn_ne_nil _ _)
        | cons first others => rfl

/-- A text that is put together from pieces ends with the last ones of them. -/
theorem intercalate_suffix (separator : Char) (before : List (List Char))
    {pieces : List (List Char)} (some : pieces ≠ []) :
    separator :: [separator].intercalate pieces <:+
      separator :: [separator].intercalate (before ++ pieces) := by
  induction before with
  | nil => exact List.suffix_refl _
  | cons first rest induction =>
      have more : rest ++ pieces ≠ [] := List.append_ne_nil_of_right_ne_nil _ some
      have step : [separator].intercalate (first :: (rest ++ pieces)) =
          first ++ separator :: [separator].intercalate (rest ++ pieces) := by
        simp [List.intercalate_cons_of_ne_nil more]
      rw [List.cons_append, step, ← List.cons_append]
      exact induction.trans (List.suffix_append _ _)

/-- A list of pieces ends with another one when the text ends with the other text, as whole
pieces. -/
theorem splitChars_suffix_iff (separator : Char) (part chars : List Char) :
    splitChars separator part <:+ splitChars separator chars ↔
      separator :: part <:+ separator :: chars := by
  constructor
  · intro suffix
    rcases suffix with ⟨before, same⟩
    have ends := intercalate_suffix separator before (List.splitOn_ne_nil separator part)
    rw [← splitChars_eq_splitOn, same, splitChars_eq_splitOn, splitChars_eq_splitOn,
      List.intercalate_splitOn, List.intercalate_splitOn] at ends
    exact ends
  · intro suffix
    rcases List.suffix_cons_iff.mp suffix with same | ⟨before, rfl⟩
    · rw [(List.cons.inj same).2]
    · rw [splitChars_append_separator]
      exact List.suffix_append _ _

/-! ## Labels -/

/-- `name.split(".")`. -/
def labels (name : String) : List String := split '.' name

theorem labels_suffix_iff (zone name : String) :
    labels zone <:+ labels name ↔ Under zone name := by
  have injective : Function.Injective String.ofList := fun first second same => by
    simpa using congrArg String.toList same
  rw [labels, labels, split, split, List.suffix_map_iff_of_injective injective,
    splitChars_suffix_iff, Under]

example : labels "a..B." = ["a", "", "B", ""] := by decide

variable (letters : Lowering)

/-- The coverage of names is the suffix order of their labels, and has its laws. -/
theorem covers_label_order :
    (∀ route domain, covers letters route domain = true ↔
      norm letters route ≠ "" ∧ norm letters domain ≠ "" ∧
        labels (norm letters route) <:+ labels (norm letters domain)) ∧
    (∀ name, norm letters name ≠ "" → covers letters name name = true) ∧
    (∀ first second third, covers letters first second = true →
      covers letters second third = true → covers letters first third = true) ∧
    (∀ first second, covers letters first second = true →
      covers letters second first = true → norm letters first = norm letters second) ∧
    ∀ first second domain, covers letters first domain = true →
      covers letters second domain = true →
      covers letters first second = true ∨ covers letters second first = true := by
  refine ⟨fun route domain => ?_, fun name named => covers_self named,
    fun first second third one other => ?_, fun first second one other => ?_,
    fun first second domain one other => ?_⟩
  · rw [covers_iff, labels_suffix_iff]
  · rw [covers_iff] at one other ⊢
    exact ⟨one.1, other.2.1, one.2.2.trans other.2.2⟩
  · rw [covers_iff] at one other
    exact one.2.2.antisymm other.2.2
  · rw [covers_iff] at one other
    rcases one.2.2.total other.2.2 with under | above
    · exact .inl ((covers_iff first second).mpr ⟨one.1, other.1, under⟩)
    · exact .inr ((covers_iff second first).mpr ⟨other.1, one.1, above⟩)

end Homelab.SplitDns
