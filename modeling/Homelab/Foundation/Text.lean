import Homelab.Foundation.Unicode
import Mathlib.Data.List.DropRight
import Mathlib.Tactic.Cases

/-! # Text as Python and the shell see it

The string operations of Python and of `$(…)`, `read` and `printf`, on the
characters of a string.
-/

namespace Homelab.Text

/-! ## Deciding

What is asked of the characters of a text is decided along the text, not over all characters
there are. -/

section Deciding

variable {property : Char → Prop} [DecidablePred property]

instance (priority := 1100) decidableEach (text : List Char) :
    Decidable (∀ char ∈ text, property char) :=
  List.decidableBAll property text

instance (priority := 1100) decidableSome (text : List Char) :
    Decidable (∃ char ∈ text, property char) :=
  List.decidableBEx property text

instance (priority := 1100) decidableEachOption (found : Option Char) :
    Decidable (∀ char ∈ found, property char) :=
  Option.decidableForallMem found

instance (priority := 1100) decidableSomeOption (found : Option Char) :
    Decidable (∃ char ∈ found, property char) :=
  Option.decidableExistsMem found

end Deciding

/-- The characters of a text that is spelled out. -/
theorem toList_literal (text : String) {chars : List Char} (same : text = .ofList chars) :
    text.toList = chars := by
  rw [same, String.toList_ofList]

/-! ## White space -/

def isSpace (char : Char) : Bool :=
  let code := char.toNat
  (9 ≤ code && code ≤ 13) || (28 ≤ code && code ≤ 32) || code = 0x85 ||
    code = 0xA0 || code = 0x1680 || (0x2000 ≤ code && code ≤ 0x200A) ||
    code = 0x2028 || code = 0x2029 || code = 0x202F || code = 0x205F ||
    code = 0x3000

/-- `text.strip()`. -/
def strip (text : String) : String :=
  .ofList ((text.toList.dropWhile isSpace).rdropWhile isSpace)

/-- `text.lstrip(chars)`. -/
def lstrip (chars : List Char) (text : String) : String :=
  .ofList (text.toList.dropWhile fun char => chars.contains char)

/-- `text.rstrip(chars)`. -/
def rstrip (chars : List Char) (text : String) : String :=
  .ofList (text.toList.rdropWhile fun char => chars.contains char)

/-- `text.lower()` of ASCII letters. Of the other characters only `İ` and the Kelvin sign
become ones, `i` and `k`. -/
def lower (text : String) : String :=
  .ofList (text.toList.map Char.toLower)

/-- `text.replace(old, new)` for single characters. -/
def replace (old new : Char) (text : String) : String :=
  .ofList (text.toList.map fun char => if char = old then new else char)

def startsWith (pattern text : String) : Bool :=
  pattern.toList.isPrefixOf text.toList

def endsWith (pattern text : String) : Bool :=
  pattern.toList.reverse.isPrefixOf text.toList.reverse

/-- `text[:-count]` for a positive count. -/
def dropLast (count : Nat) (text : String) : String :=
  .ofList (text.toList.take (text.toList.length - count))

def take (count : Nat) (text : String) : String :=
  .ofList (text.toList.take count)

example : strip "\t ok\n" = "ok" := by decide

def Spaceless (text : String) : Prop := ∀ char ∈ text.toList, isSpace char = false

instance (text : String) : Decidable (Spaceless text) :=
  inferInstanceAs (Decidable (∀ char ∈ _, _))

theorem strip_spaceless {text : String} (spaceless : Spaceless text) :
    strip text = text := by
  have front : text.toList.dropWhile isSpace = text.toList :=
    List.dropWhile_eq_self_iff.mpr fun long => by
      simp [spaceless _ (List.getElem_mem long)]
  have back : text.toList.rdropWhile isSpace = text.toList :=
    List.rdropWhile_eq_self_iff.mpr fun long => by
      simp [spaceless _ (List.getLast_mem long)]
  rw [strip, front, back, String.ofList_toList]

/-! ## Numbers -/

/-- Digits, with single underscores between them. `pending` while a digit has to
come next. -/
def digitsFrom (value : Nat) : (pending : Bool) → List Char → Option Nat
  | true, [] => none
  | false, [] => some value
  | pending, char :: rest =>
      match decimalValue char with
      | some digit => digitsFrom (value * 10 + digit) false rest
      | none => if char = '_' ∧ pending = false then digitsFrom value true rest else none

/-- White space around a number. The separators of ASCII are none. -/
def isMargin (char : Char) : Bool := isSpace char && (char.toNat < 28 || 31 < char.toNat)

/-- The text that `int` reads. -/
def trim (text : List Char) : List Char := (text.dropWhile isMargin).rdropWhile isMargin

def parseInt (text : String) : Option Int :=
  match trim text.toList with
  | '-' :: digits => (digitsFrom 0 true digits).map fun value => -(value : Int)
  | '+' :: digits => (digitsFrom 0 true digits).map Int.ofNat
  | digits => (digitsFrom 0 true digits).map Int.ofNat

example : parseInt " -1_0\n" = some (-10) := by decide

/-- `int(text)`, which reads no more than 4300 digits. -/
def intOf (text : String) : Option Int :=
  if text.toList.countP isDecimal ≤ 4300 then parseInt text else none

theorem isMargin_of_visible {char : Char} (visible : isSpace char = false) :
    isMargin char = false := by
  rw [isMargin, visible, Bool.false_and]

theorem trim_visible {text : List Char} (visible : ∀ char ∈ text, isMargin char = false) :
    trim text = text := by
  have front : text.dropWhile isMargin = text :=
    List.dropWhile_eq_self_iff.mpr fun long => by
      simp [visible _ (List.getElem_mem long)]
  rw [trim, front, List.rdropWhile_eq_self_iff]
  intro long
  simp [visible _ (List.getLast_mem long)]

/-! ## Pieces -/

def splitChars (separator : Char) : List Char → List (List Char)
  | [] => [[]]
  | char :: rest =>
      if char = separator then [] :: splitChars separator rest
      else
        match splitChars separator rest with
        | [] => [[char]]
        | head :: tail => (char :: head) :: tail

/-- `text.split(separator)` for a single character. -/
def split (separator : Char) (text : String) : List String :=
  (splitChars separator text.toList).map String.ofList

/-- `list(filter(None, text.split(",")))`. -/
def csv (text : String) : List String :=
  (split ',' text).filter (· ≠ "")

/-! ## Lines -/

/-- `sys.stdout.write(line + "\n")` for each line. -/
def printLines (lines : List String) : String :=
  .ofList (lines.flatMap fun line => line.toList ++ ['\n'])

/-- The array a `while read` loop collects: every complete line that is not
empty. -/
def readLines (text : String) : List String :=
  ((split '\n' text).dropLast).filter (· ≠ "")

/-- `$(…)`: the output without its trailing newlines. -/
def substitute (output : String) : String :=
  .ofList (output.toList.rdropWhile (· = '\n'))

def OneLine (text : String) : Prop := '\n' ∉ text.toList

instance (text : String) : Decidable (OneLine text) :=
  inferInstanceAs (Decidable (_ ∉ _))

example : readLines "a\n\nb\nc" = ["a", "b"] := by decide

theorem splitChars_of_not_mem {separator : Char} {chars : List Char}
    (absent : separator ∉ chars) : splitChars separator chars = [chars] := by
  induction chars with
  | nil => rfl
  | cons head rest induction =>
      simp only [List.mem_cons, not_or] at absent
      rw [splitChars, if_neg (Ne.symm absent.1), induction absent.2]

theorem splitChars_append {separator : Char} {chars : List Char}
    (absent : separator ∉ chars) (rest : List Char) :
    splitChars separator (chars ++ separator :: rest) =
      chars :: splitChars separator rest := by
  induction chars with
  | nil => simp [splitChars]
  | cons head tail induction =>
      simp only [List.mem_cons, not_or] at absent
      rw [List.cons_append, splitChars, if_neg (Ne.symm absent.1),
        induction absent.2]

theorem split_printLines {lines : List String} (single : ∀ line ∈ lines, OneLine line) :
    split '\n' (printLines lines) = lines ++ [""] := by
  have pieces : splitChars '\n' (lines.flatMap fun line => line.toList ++ ['\n']) =
      lines.map String.toList ++ [[]] := by
    induction lines with
    | nil => rfl
    | cons line rest induction =>
        rw [List.flatMap_cons, List.append_assoc, List.singleton_append,
          splitChars_append (single line (by simp)),
          induction fun other member => single other (by simp [member])]
        simp
  rw [split, printLines, String.toList_ofList, pieces, List.map_append, List.map_map,
    List.map_congr_left (g := id)]
  · simp
  · intro line _
    simp

/-- Lines that are printed are read back. -/
theorem readLines_printLines {lines : List String}
    (each : ∀ line ∈ lines, line ≠ "" ∧ OneLine line) :
    readLines (printLines lines) = lines := by
  rw [readLines, split_printLines fun line member => (each line member).2,
    List.dropLast_concat, List.filter_eq_self.mpr]
  intro line member
  simpa using (each line member).1

theorem splitChars_append_separator (separator : Char) (chars rest : List Char) :
    splitChars separator (chars ++ separator :: rest) =
      splitChars separator chars ++ splitChars separator rest := by
  induction chars with
  | nil => simp [splitChars]
  | cons head tail induction =>
      rw [List.cons_append, splitChars, splitChars, induction]
      split
      · rfl
      · cases pieces : splitChars separator tail with
        | nil =>
            cases tail with
            | nil => cases pieces
            | cons next more =>
                rw [splitChars] at pieces
                split at pieces
                · cases pieces
                · split at pieces <;> cases pieces
        | cons first others => rfl

theorem mem_split_printLines {lines : List String} {line : String} (member : line ∈ lines)
    (single : OneLine line) : line ∈ split '\n' (printLines lines) := by
  have piece : line.toList ∈ splitChars '\n' (printLines lines).toList := by
    rw [printLines, String.toList_ofList]
    induction lines with
    | nil => cases member
    | cons head rest induction =>
        rw [List.flatMap_cons, List.append_assoc, List.singleton_append,
          splitChars_append_separator, List.mem_append]
        rcases List.mem_cons.mp member with rfl | member
        · left
          rw [splitChars_of_not_mem single]
          exact List.mem_singleton_self _
        · exact .inr (induction member)
  exact List.mem_map.mpr ⟨_, piece, String.ofList_toList⟩

theorem not_mem_of_mem_splitChars {separator : Char} {chars piece : List Char}
    (member : piece ∈ splitChars separator chars) : separator ∉ piece := by
  induction chars generalizing piece with
  | nil =>
      rw [splitChars, List.mem_singleton] at member
      simp [member]
  | cons head rest induction =>
      rw [splitChars] at member
      split at member
      · rcases List.mem_cons.mp member with rfl | member
        · simp
        · exact induction member
      · rename_i different
        cases pieces : splitChars separator rest with
        | nil =>
            rw [pieces, List.mem_singleton] at member
            simp [member, Ne.symm different]
        | cons first others =>
            rw [pieces] at member
            rcases List.mem_cons.mp member with rfl | member
            · have absent := induction (by rw [pieces]; exact List.mem_cons_self)
              simp [absent, Ne.symm different]
            · exact induction (by rw [pieces]; exact List.mem_cons_of_mem _ member)

theorem readLines_each {text line : String} (member : line ∈ readLines text) :
    line ≠ "" ∧ OneLine line := by
  rw [readLines, List.mem_filter] at member
  rcases member with ⟨member, nonempty⟩
  refine ⟨by simpa using nonempty, ?_⟩
  rcases List.mem_map.mp (List.dropLast_subset _ member) with
    ⟨piece, pieceMember, rfl⟩
  rw [OneLine, String.toList_ofList]
  exact not_mem_of_mem_splitChars pieceMember

/-! ## Operations that add no new line -/

theorem OneLine.of_subset {text part : String} (single : OneLine text)
    (subset : part.toList ⊆ text.toList) : OneLine part :=
  fun member => single (subset member)

theorem OneLine.strip {text : String} (single : OneLine text) :
    OneLine (strip text) := by
  apply single.of_subset
  rw [Text.strip, String.toList_ofList]
  exact List.Subset.trans (List.rdropWhile_prefix _ _).subset
    (List.dropWhile_sublist _).subset

theorem OneLine.lstrip {text : String} (chars : List Char) (single : OneLine text) :
    OneLine (lstrip chars text) := by
  apply single.of_subset
  rw [Text.lstrip, String.toList_ofList]
  exact (List.dropWhile_sublist _).subset

theorem OneLine.dropLast {text : String} (count : Nat) (single : OneLine text) :
    OneLine (dropLast count text) := by
  apply single.of_subset
  rw [Text.dropLast, String.toList_ofList]
  exact List.take_subset _ _

theorem OneLine.replace {text : String} {old new : Char} (single : OneLine text)
    (visible : new ≠ '\n') : OneLine (replace old new text) := by
  rw [OneLine, Text.replace, String.toList_ofList, List.mem_map]
  rintro ⟨char, member, equal⟩
  split at equal
  · exact visible equal
  · exact single (equal ▸ member)

theorem subset_of_mem_splitChars {separator : Char} {chars piece : List Char}
    (member : piece ∈ splitChars separator chars) : piece ⊆ chars := by
  induction chars generalizing piece with
  | nil =>
      rw [splitChars, List.mem_singleton] at member
      simp [member]
  | cons head rest induction =>
      rw [splitChars] at member
      split at member
      · rcases List.mem_cons.mp member with rfl | member
        · simp
        · exact List.subset_cons_of_subset _ (induction member)
      · cases pieces : splitChars separator rest with
        | nil =>
            rw [pieces, List.mem_singleton] at member
            simp [member]
        | cons first others =>
            rw [pieces] at member induction
            rcases List.mem_cons.mp member with rfl | member
            · exact List.cons_subset_cons _ (induction List.mem_cons_self)
            · exact List.subset_cons_of_subset _
                (induction (List.mem_cons_of_mem _ member))

theorem OneLine.split {text piece : String} {separator : Char}
    (single : OneLine text) (member : piece ∈ split separator text) :
    OneLine piece := by
  rcases List.mem_map.mp member with ⟨chars, charsMember, rfl⟩
  apply single.of_subset
  rw [String.toList_ofList]
  exact subset_of_mem_splitChars charsMember

/-! ## Operations that add no white space -/

theorem Spaceless.oneLine {text : String} (spaceless : Spaceless text) : OneLine text :=
  fun member => absurd (spaceless _ member) (by decide)

theorem Spaceless.of_subset {text part : String} (spaceless : Spaceless text)
    (subset : part.toList ⊆ text.toList) : Spaceless part :=
  fun char member => spaceless char (subset member)

theorem Spaceless.dropLast {text : String} (count : Nat) (spaceless : Spaceless text) :
    Spaceless (dropLast count text) := by
  apply spaceless.of_subset
  rw [Text.dropLast, String.toList_ofList]
  exact List.take_subset _ _

theorem Spaceless.replace {text : String} {old new : Char} (spaceless : Spaceless text)
    (visible : isSpace new = false) : Spaceless (replace old new text) := by
  intro char member
  rw [Text.replace, String.toList_ofList, List.mem_map] at member
  rcases member with ⟨source, member, equal⟩
  split at equal
  · exact equal ▸ visible
  · exact equal ▸ spaceless source member

theorem Spaceless.split {text piece : String} {separator : Char}
    (spaceless : Spaceless text) (member : piece ∈ split separator text) :
    Spaceless piece := by
  rcases List.mem_map.mp member with ⟨chars, charsMember, rfl⟩
  apply spaceless.of_subset
  rw [String.toList_ofList]
  exact subset_of_mem_splitChars charsMember

theorem substitute_substitute (output : String) :
    substitute (substitute output) = substitute output := by
  simp [substitute, List.rdropWhile_idempotent]

end Homelab.Text
