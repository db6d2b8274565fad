import Homelab.Foundation.Text

/-! # Searching text and cutting it into lines

`in`, `partition` and `splitlines` of Python strings, and paths that are spelled
in different ways.
-/

namespace Homelab.Text

/-- A line, or a part of one. -/
abbrev Line := List Char

/-- The text before the first `separator` and the text after it. -/
def cutAt (separator : Line) : Line → Option (Line × Line)
  | [] => if separator = [] then some ([], []) else none
  | char :: rest =>
      if separator.isPrefixOf (char :: rest) then
        some ([], (char :: rest).drop separator.length)
      else (cutAt separator rest).map fun parts => (char :: parts.1, parts.2)

/-- Where the separator does not begin any earlier, the line is cut at it. -/
theorem cutAt_append {separator left : Line} (long : separator ≠ [])
    (absent : cutAt separator (left ++ separator.dropLast) = none) (right : Line) :
    cutAt separator (left ++ separator ++ right) = some (left, right) := by
  induction left with
  | nil =>
      rw [List.nil_append]
      cases separator with
      | nil => exact absurd rfl long
      | cons head tail => simp [cutAt]
  | cons char rest induction =>
      rw [List.cons_append, cutAt] at absent
      split at absent
      · cases absent
      · rename_i other
        have longer : char :: (rest ++ separator.dropLast) <+:
            char :: (rest ++ separator ++ right) := by
          have start : separator.dropLast <+: separator ++ right :=
            (List.dropLast_prefix separator).trans (List.prefix_append _ _)
          rw [List.append_assoc]
          exact (List.prefix_cons_inj char).mpr ((List.prefix_append_right_inj rest).mpr start)
        have later : ¬separator.isPrefixOf (char :: (rest ++ separator ++ right)) = true := by
          rw [List.isPrefixOf_iff_prefix] at other ⊢
          intro here
          apply other
          apply List.prefix_of_prefix_length_le here longer
          simp
          omega
        rw [Option.map_eq_none_iff] at absent
        rw [List.cons_append, List.cons_append, cutAt, if_neg later, induction absent]
        rfl

/-- The line is the part before, the separator and the part after. -/
theorem cutAt_parts {separator line left right : Line}
    (cut : cutAt separator line = some (left, right)) : line = left ++ separator ++ right := by
  induction line generalizing left with
  | nil =>
      rw [cutAt] at cut
      split at cut
      · next same =>
          cases cut
          simp [same]
      · cases cut
  | cons char rest induction =>
      rw [cutAt] at cut
      split at cut
      · next here =>
          cases cut
          rcases List.isPrefixOf_iff_prefix.mp here with ⟨more, equal⟩
          rw [← equal, List.drop_left, List.nil_append]
      · rcases Option.map_eq_some_iff.mp cut with ⟨parts, later, same⟩
        cases same
        rw [induction later, List.cons_append, List.cons_append]

/-- Where the first character of the separator does not occur, the line is cut at it. -/
theorem cutAt_clear {head : Char} {tail left : Line} (clear : head ∉ left) (right : Line) :
    cutAt (head :: tail) (left ++ head :: tail ++ right) = some (left, right) := by
  induction left with
  | nil => simp [cutAt]
  | cons char rest induction =>
      rw [List.mem_cons, not_or] at clear
      rw [List.cons_append, List.cons_append, cutAt, if_neg (by simp [clear.1]),
        induction clear.2]
      rfl

def contains (part : String) (line : Line) : Bool := (cutAt part.toList line).isSome

def before (separator : String) (line : Line) : Line :=
  match cutAt separator.toList line with
  | some parts => parts.1
  | none => line

def after (separator : String) (line : Line) : Line :=
  match cutAt separator.toList line with
  | some parts => parts.2
  | none => []

/-- The characters that end a line for `str.splitlines`. -/
def isBreak (char : Char) : Bool :=
  let code := char.toNat
  (10 ≤ code && code ≤ 13) || (28 ≤ code && code ≤ 30) || code = 0x85 ||
    code = 0x2028 || code = 0x2029

def lines : List Char → List Line
  | [] => []
  | '\r' :: '\n' :: rest => [] :: lines rest
  | char :: rest =>
      if isBreak char then [] :: lines rest
      else
        match lines rest with
        | [] => [[char]]
        | line :: others => (char :: line) :: others

def Unbroken (line : Line) : Prop := ∀ char ∈ line, isBreak char = false

instance (line : Line) : Decidable (Unbroken line) :=
  inferInstanceAs (Decidable (∀ char ∈ _, _))

theorem Unbroken.append {first second : Line} (left : Unbroken first)
    (right : Unbroken second) : Unbroken (first ++ second) := by
  intro char member
  rcases List.mem_append.mp member with member | member
  · exact left char member
  · exact right char member

theorem lines_append {line : Line} (unbroken : Unbroken line) (rest : List Char) :
    lines (line ++ '\n' :: rest) = line :: lines rest := by
  induction line with
  | nil => rfl
  | cons char more induction =>
      have visible := unbroken char List.mem_cons_self
      have rest := induction fun other member => unbroken other (List.mem_cons_of_mem _ member)
      rw [List.cons_append, lines.eq_def]
      split
      · next impossible => cases impossible
      · next equal =>
          rw [(List.cons.inj equal).1] at visible
          cases visible
      · next equal =>
          rcases List.cons.inj equal with ⟨rfl, rfl⟩
          rw [if_neg (by simp [visible]), rest]

def joined (lines : List Line) : List Char := lines.flatMap fun line => line ++ ['\n']

theorem lines_joined {texts : List Line} (unbroken : ∀ line ∈ texts, Unbroken line) :
    lines (joined texts) = texts := by
  induction texts with
  | nil => rfl
  | cons line rest induction =>
      rw [joined, List.flatMap_cons, List.append_assoc, List.singleton_append,
        lines_append (unbroken line List.mem_cons_self)]
      exact congrArg _ (induction fun other member =>
        unbroken other (List.mem_cons_of_mem _ member))

def splitlines (text : String) : List Line := lines text.toList

example : splitlines "a\r\n\nb" = [['a'], [], ['b']] := by decide

/-- The names a path goes through, whatever slashes and dots stand between. -/
def components (path : String) : List String :=
  (split '/' path).filter fun name => name ≠ "" ∧ name ≠ "."

/-- The two spell the same absolute path. -/
def SamePath (spelling path : String) : Prop :=
  startsWith "/" spelling = true ∧ startsWith "/" path = true ∧
    components spelling = components path

instance (spelling path : String) : Decidable (SamePath spelling path) :=
  inferInstanceAs (Decidable (_ ∧ _))

example : SamePath "/Volumes//share/." "/Volumes/share" := by decide

end Homelab.Text
