import Homelab.Foundation.JsonQuotes

/-! # Searching text for a quoted word

What is found at the last place where it is found at all. A text that stands between quotes as
it should hides none of the quotes around it.
-/

namespace Homelab.Text

open Json

def rightmost {α : Type} (found : Line → Option α) : Line → Option α
  | [] => none
  | char :: rest =>
      match rightmost found rest with
      | some value => some value
      | none => found (char :: rest)

/-- Nothing is found where the line does not start with the key. -/
def Keyed {α : Type} (key : Line) (found : Line → Option α) : Prop :=
  ∀ line, ¬key <+: line → found line = none

/-- `part in line`, as a search. -/
def starts (part : String) (line : Line) : Option Unit :=
  if part.toList.isPrefixOf line then some () else none

theorem starts_keyed (part : String) : Keyed part.toList (starts part) := by
  intro line other
  rw [starts, if_neg]
  rwa [List.isPrefixOf_iff_prefix]

theorem contains_eq (part : String) (line : Line) (visible : part.toList ≠ []) :
    contains part line = (rightmost (starts part) line).isSome := by
  rw [contains]
  induction line with
  | nil => simp [cutAt, visible, rightmost]
  | cons char rest induction =>
      rw [cutAt, rightmost, starts]
      split
      · cases rightmost (starts part) rest <;> rfl
      · rw [Option.isSome_map, induction]
        cases rightmost (starts part) rest <;> rfl

section

variable {α : Type} {word more : Line} {found : Line → Option α}
  (keyed : Keyed ('"' :: (word ++ '"' :: more)) found)

include keyed

theorem rightmost_cons {char : Char} (other : char ≠ '"') (rest : Line) :
    rightmost found (char :: rest) = rightmost found rest := by
  have nothing : found (char :: rest) = none := by
    apply keyed
    intro starts
    exact other (List.cons_prefix_cons.mp starts).1.symm
  rw [rightmost, nothing]
  cases rightmost found rest <;> rfl

/-- Without a quote there is nothing to find. -/
theorem rightmost_append {front : Line} (free : '"' ∉ front) (rest : Line) :
    rightmost found (front ++ rest) = rightmost found rest := by
  induction front with
  | nil => rfl
  | cons char others induction =>
      simp only [List.mem_cons, not_or] at free
      rw [List.cons_append, rightmost_cons keyed (Ne.symm free.1), induction free.2]

theorem rightmost_nothing {line : Line} (free : '"' ∉ line) : rightmost found line = none := by
  have whole := rightmost_append keyed free []
  rwa [List.append_nil] at whole

omit keyed in
theorem prefix_piece {piece rest : Line} (wordFree : '"' ∉ word) (free : '"' ∉ piece) :
    word ++ '"' :: more <+: piece ++ '"' :: rest ↔ word = piece ∧ more <+: rest := by
  induction word generalizing piece with
  | nil =>
      cases piece with
      | nil => simp [List.cons_prefix_cons]
      | cons char others =>
          have other : '"' ≠ char := fun same => free (same ▸ List.mem_cons_self)
          simp [List.cons_prefix_cons, other]
  | cons first others induction =>
      simp only [List.mem_cons, not_or] at wordFree
      cases piece with
      | nil => simp [List.cons_prefix_cons, Ne.symm wordFree.1]
      | cons char letters =>
          simp only [List.mem_cons, not_or] at free
          simp [List.cons_prefix_cons, induction wordFree.2 free.2, and_assoc]

/-- A piece between two quotes that is another word, or goes on in another way. -/
theorem rightmost_piece {piece rest : Line} (wordFree : '"' ∉ word) (free : '"' ∉ piece)
    (other : word = piece → ¬more <+: rest) :
    rightmost found ('"' :: (piece ++ '"' :: rest)) = rightmost found ('"' :: rest) := by
  have nothing : found ('"' :: (piece ++ '"' :: rest)) = none := by
    apply keyed
    intro starts
    have inner := (prefix_piece wordFree free).mp (List.cons_prefix_cons.mp starts).2
    exact other inner.1 inner.2
  rw [rightmost, rightmost_append keyed free, nothing]
  cases rightmost found ('"' :: rest) <;> rfl

end

/-- After the last quote there is nothing to find. -/
theorem rightmost_closing {α : Type} {word more : Line} {found : Line → Option α}
    (keyed : Keyed ('"' :: (word ++ '"' :: more)) found) {line : Line} (free : '"' ∉ line) :
    rightmost found ('"' :: line) = none := by
  have nothing : found ('"' :: line) = none := by
    apply keyed
    intro starts
    have inner := (List.cons_prefix_cons.mp starts).2
    exact free (inner.subset (by simp))
  rw [rightmost, rightmost_nothing keyed free, nothing]

theorem rightmost_here {α : Type} {found : Line → Option α} {char : Char} {rest : Line}
    (nothing : rightmost found rest = none) :
    rightmost found (char :: rest) = found (char :: rest) := by
  rw [rightmost, nothing]

def pieces (parts : List Line) (rest : Line) : Line :=
  parts.foldr (fun part rest => '"' :: (part ++ rest)) rest

theorem pieces_append (first second : List Line) (rest : Line) :
    pieces (first ++ second) rest = pieces first (pieces second rest) := by
  simp [pieces]

theorem pieces_quote (parts : List Line) (rest : Line) :
    ∃ more, pieces parts ('"' :: rest) = '"' :: more := by
  cases parts with
  | nil => exact ⟨rest, rfl⟩
  | cons part others => exact ⟨_, rfl⟩

section

variable {α : Type} {word more : Line} {found : Line → Option α}
  (keyed : Keyed ('"' :: (word ++ '"' :: more)) found)

include keyed

theorem rightmost_pieces {parts : List Line} (rest : Line) (wordFree : '"' ∉ word)
    (other : ∀ part ∈ parts, '"' ∉ part ∧ word ≠ part) :
    rightmost found (pieces parts ('"' :: rest)) = rightmost found ('"' :: rest) := by
  induction parts with
  | nil => rfl
  | cons part others induction =>
      have here := other part List.mem_cons_self
      have later := induction fun own member => other own (List.mem_cons_of_mem _ member)
      rcases pieces_quote others rest with ⟨tail, equal⟩
      have spelled : pieces (part :: others) ('"' :: rest) = '"' :: (part ++ '"' :: tail) := by
        rw [← equal]
        rfl
      rw [spelled, rightmost_piece keyed wordFree here.1 (fun same => absurd same here.2),
        ← equal, later]

end

/-! ## Text that stays between its quotes -/

/-- A word and a colon do not begin inside such a text. -/
theorem not_prefix_inside {word raw more : Line} (wordFree : '"' ∉ word)
    (plain : '\\' ∉ word) (inside : Inside false raw) :
    ¬word ++ '"' :: ':' :: more <+: raw ++ ['"', '\x7d'] := by
  induction word generalizing raw with
  | nil =>
      cases raw with
      | nil => simp [List.cons_prefix_cons]
      | cons char rest =>
          have other := inside.2.1 rfl
          simp [List.cons_prefix_cons, Ne.symm other]
  | cons first others induction =>
      simp only [List.mem_cons, not_or] at wordFree plain
      cases raw with
      | nil => simp [List.cons_prefix_cons, Ne.symm wordFree.1]
      | cons char rest =>
          intro starts
          rcases List.cons_prefix_cons.mp starts with ⟨rfl, later⟩
          have next := inside.2.2
          simp only [Bool.not_false, Bool.true_and, Ne.symm plain.1, decide_false] at next
          exact induction wordFree.2 plain.2 next later

/-- Nothing is found in such a text and the end of an object after it. -/
theorem rightmost_inside {α : Type} {word more : Line} {found : Line → Option α}
    (keyed : Keyed ('"' :: (word ++ '"' :: ':' :: more)) found) (wordFree : '"' ∉ word)
    (plain : '\\' ∉ word) {raw : Line} (inside : Inside false raw) :
    rightmost found ('"' :: (raw ++ ['"', '\x7d'])) = none := by
  have nothing : ∀ rest, Inside false rest → found ('"' :: (rest ++ ['"', '\x7d'])) = none := by
    intro rest sealed_
    apply keyed
    intro starts
    exact not_prefix_inside wordFree plain sealed_ (List.cons_prefix_cons.mp starts).2
  have later : ∀ escaped, Inside escaped raw →
      rightmost found (raw ++ ['"', '\x7d']) = none := by
    clear inside
    induction raw with
    | nil =>
        intro escaped inside
        have short : found ['"', '\x7d'] = none := by
          apply keyed
          intro starts
          have long := starts.length_le
          simp only [List.length_cons, List.length_append, List.length_nil] at long
          omega
        have brace : rightmost found ['\x7d'] = none := rightmost_nothing keyed (by decide)
        rw [List.nil_append, rightmost, brace, short]
    | cons char rest induction =>
        intro escaped inside
        by_cases quote : char = '"'
        · subst quote
          have open_ : escaped = true := by
            cases escaped with
            | true => rfl
            | false => exact absurd rfl (inside.2.1 rfl)
          subst open_
          rw [List.cons_append, rightmost, induction _ inside.2.2, nothing rest inside.2.2]
        · rw [List.cons_append, rightmost_cons keyed quote]
          exact induction _ inside.2.2
  rw [rightmost, later false inside, nothing raw inside]

end Homelab.Text
