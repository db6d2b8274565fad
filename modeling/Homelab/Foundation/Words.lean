import Homelab.Foundation.Decimal

/-! # Words of a line

How `awk` and `read` take a line apart.
-/

namespace Homelab.Text

def isBlank (char : Char) : Bool := char = ' ' || char = '\t'

/-- The fields that `awk` and `read` find in a line. -/
def awkFields (line : String) : List String :=
  ((line.toList.splitOnP isBlank).filter (· ≠ [])).map String.ofList

/-- `read -r`: the first line without the blanks around it. -/
def readWord (text : String) : String :=
  .ofList (((text.toList.takeWhile (· ≠ '\n')).dropWhile isBlank).rdropWhile isBlank)

theorem isBlank_of_spaceless {text : String} (spaceless : Spaceless text) :
    ∀ char ∈ text.toList, isBlank char = false := by
  intro char member
  have solid := spaceless char member
  by_contra blank
  rw [Bool.not_eq_false, isBlank, Bool.or_eq_true, decide_eq_true_eq, decide_eq_true_eq] at blank
  rcases blank with rfl | rfl
  · exact absurd solid (by decide)
  · exact absurd solid (by decide)

theorem awkFields_word {word : String} (spaceless : Spaceless word) (solid : word ≠ "") :
    awkFields word = [word] := by
  have chars : word.toList ≠ [] := by simpa using solid
  rw [awkFields, List.splitOnP_eq_singleton (isBlank_of_spaceless spaceless),
    List.filter_cons_of_pos (by simpa using chars), List.filter_nil, List.map_singleton,
    String.ofList_toList]

theorem awkFields_cons {word rest : String} (spaceless : Spaceless word) (solid : word ≠ "") :
    awkFields (word ++ " " ++ rest) = word :: awkFields rest := by
  have chars : word.toList ≠ [] := by simpa using solid
  have text : (word ++ " " ++ rest).toList = word.toList ++ ' ' :: rest.toList := by
    simp
  rw [awkFields, text,
    List.splitOnP_append_cons_of_forall_mem (isBlank_of_spaceless spaceless) ' ' (by decide),
    List.filter_cons_of_pos (by simpa using chars), List.map_cons, String.ofList_toList,
    awkFields]

/-- A printed line is taken up to its end. -/
theorem takeWhile_printLines {line : String} (single : OneLine line) :
    (printLines [line]).toList.takeWhile (· ≠ '\n') = line.toList := by
  have inside : ∀ char ∈ line.toList, decide (char ≠ '\n') = true := by
    intro char member
    rw [decide_eq_true_eq]
    rintro rfl
    exact single member
  rw [printLines, String.toList_ofList, List.flatMap_singleton,
    List.takeWhile_append_of_pos inside]
  simp

/-- `$(…)` of a printed line. -/
theorem substitute_printLines {line : String} (single : OneLine line) :
    substitute (printLines [line]) = line := by
  have kept : line.toList.rdropWhile (· = '\n') = line.toList := by
    refine List.rdropWhile_eq_self_iff.mpr fun some_ newline => ?_
    rw [decide_eq_true_eq] at newline
    exact single (newline ▸ List.getLast_mem some_)
  rw [substitute, printLines, String.toList_ofList, List.flatMap_singleton,
    List.rdropWhile_concat_pos _ _ _ (by decide), kept, String.ofList_toList]

theorem readWord_printLines {word : String} (spaceless : Spaceless word) :
    readWord (printLines [word]) = word := by
  have blank := isBlank_of_spaceless spaceless
  have front : word.toList.dropWhile isBlank = word.toList := by
    rw [List.dropWhile_eq_self_iff]
    intro long
    rw [Bool.not_eq_true]
    exact blank _ (List.getElem_mem long)
  have back : word.toList.rdropWhile isBlank = word.toList := by
    rw [List.rdropWhile_eq_self_iff]
    intro long
    rw [Bool.not_eq_true]
    exact blank _ (List.getLast_mem long)
  rw [readWord, takeWhile_printLines spaceless.oneLine, front, back, String.ofList_toList]

theorem toString_ne_empty (value : Nat) : toString value ≠ "" := by
  intro empty
  have read := parseInt_toString value
  rw [empty] at read
  cases read

end Homelab.Text
