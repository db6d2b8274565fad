import Homelab.Foundation.Lines

/-! # Lines of fields

Fields `name=value` with a blank between two of them, and what is read from them. Nothing is
quoted.
-/

namespace Homelab.Logfmt

open Text

/-- The pieces of the line that have a name, in their order. -/
def pairs (line : Line) : List (Line × Line) := (splitChars ' ' line).filterMap (cutAt ['='])

def read (name line : Line) : Option Line := (pairs line).lookup name

def field (entry : Line × Line) : Line := entry.1 ++ '=' :: entry.2

example : read ['b'] "x a=1 b=2=3".toList = some ['2', '=', '3'] := by decide

/-! ## Writing and reading -/

theorem pairs_append {piece : Line} (clear : ' ' ∉ piece) (rest : Line) :
    pairs (piece ++ ' ' :: rest) = (cutAt ['='] piece).toList ++ pairs rest := by
  rw [pairs, splitChars_append clear, List.filterMap_cons, pairs]
  cases cutAt ['='] piece <;> rfl

theorem pairs_piece {piece : Line} (clear : ' ' ∉ piece) :
    pairs piece = (cutAt ['='] piece).toList := by
  rw [pairs, splitChars_of_not_mem clear, List.filterMap_cons]
  cases cutAt ['='] piece <;> rfl

/-- The name ends at the first `=`, the value at the first blank. -/
structure Plain (entry : Line × Line) : Prop where
  name : '=' ∉ entry.1 ∧ ' ' ∉ entry.1
  value : ' ' ∉ entry.2

theorem cutAt_field {entry : Line × Line} (plain : Plain entry) :
    cutAt ['='] (field entry) = some entry := by
  have cut : cutAt ['='] (entry.1 ++ ['='] ++ entry.2) = some (entry.1, entry.2) :=
    cutAt_clear plain.name.1 entry.2
  rw [List.append_assoc] at cut
  exact cut

theorem field_clear {entry : Line × Line} (plain : Plain entry) : ' ' ∉ field entry := by
  simp [field, plain.name.2, plain.value]

/-- The fields are read back as they were written. -/
theorem pairs_fields {entries : List (Line × Line)} (plain : ∀ entry ∈ entries, Plain entry) :
    pairs ([' '].intercalate (entries.map field)) = entries := by
  induction entries with
  | nil => rfl
  | cons entry rest induction =>
      have own := plain entry List.mem_cons_self
      have later := induction fun other member => plain other (List.mem_cons_of_mem _ member)
      cases rest with
      | nil => rw [List.map_singleton, List.intercalate_singleton, pairs_piece (field_clear own),
          cutAt_field own, Option.toList_some]
      | cons next more =>
          have step : [' '].intercalate ((entry :: next :: more).map field) =
              field entry ++ ' ' :: [' '].intercalate ((next :: more).map field) := by
            simp [List.intercalate_cons_of_ne_nil]
          rw [step, pairs_append (field_clear own), cutAt_field own, later]
          rfl

/-! ## What a value can be -/

/-- A value that is read has no blank, and consists of characters of the line. -/
theorem read_clear {name line value : Line} (found : read name line = some value) :
    ' ' ∉ value ∧ ∀ char ∈ value, char ∈ line := by
  rcases List.lookup_eq_some_iff.mp found with ⟨before, after, whole, _⟩
  have member : (name, value) ∈ pairs line := by
    rw [whole]
    exact List.mem_append_right _ List.mem_cons_self
  rcases List.mem_filterMap.mp member with ⟨piece, own, cut⟩
  have parts := cutAt_parts cut
  have clear := not_mem_of_mem_splitChars own
  constructor
  · intro blank
    rw [parts] at clear
    exact clear (List.mem_append_right _ blank)
  · intro char inside
    apply subset_of_mem_splitChars own
    rw [parts]
    exact List.mem_append_right _ inside

/-! ## Fields that may be left out -/

def present (fields : List (Line × Option Line)) : List (Line × Line) :=
  fields.filterMap fun field => field.2.map fun value => (field.1, value)

theorem lookup_present {fields : List (Line × Option Line)}
    (distinct : (fields.map Prod.fst).Nodup) {name : Line} {value : Option Line}
    (member : (name, value) ∈ fields) : (present fields).lookup name = value := by
  induction fields with
  | nil => cases member
  | cons own rest induction =>
      rcases own with ⟨ownName, ownValue⟩
      rw [List.map_cons, List.nodup_cons] at distinct
      rcases List.mem_cons.mp member with same | member
      · cases same
        cases value with
        | some value => simp [present]
        | none =>
            -- No later field has the name.
            rw [present, List.filterMap_cons]
            simp only [Option.map_none]
            rw [List.lookup_eq_none_iff]
            intro entry inside
            rcases List.mem_filterMap.mp inside with ⟨⟨other, held⟩, own, made⟩
            rcases Option.map_eq_some_iff.mp made with ⟨_, _, equal⟩
            cases equal
            apply bne_iff_ne.mpr
            intro same
            have named : name ∈ rest.map Prod.fst := List.mem_map.mpr ⟨_, own, same.symm⟩
            exact distinct.1 named
      · have differs : name ≠ ownName := by
          intro same
          rw [← same] at distinct
          have named : name ∈ rest.map Prod.fst := List.mem_map.mpr ⟨_, member, rfl⟩
          exact distinct.1 named
        have later := induction distinct.2 member
        rw [present] at later ⊢
        cases ownValue with
        | none => exact later
        | some held =>
            rw [List.filterMap_cons]
            simp only [Option.map_some]
            rw [List.lookup_cons, beq_false_of_ne differs]
            exact later

end Homelab.Logfmt
