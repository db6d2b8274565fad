/-! # Checks that can raise

A check that is made in full, or breaks before its answer is known. Checks made one after
the other break where the first of them does that is reached.
-/

namespace Homelab.Checklist

variable {ε α : Type}

/-- `first and next`, where the second check is made if the first one is passed. -/
def both (first next : Except ε Bool) : Except ε Bool := do
  if ← first then next else return false

/-- A check answers whether something holds, unless it breaks. -/
structure Decides (outcome : Except ε Bool) (holds breaks : Prop) : Prop where
  raises : breaks → ∃ raised, outcome = .error raised
  yes : ¬ breaks → holds → outcome = .ok true
  no : ¬ breaks → ¬ holds → outcome = .ok false

namespace Decides

variable {outcome next : Except ε Bool} {holds breaks more late : Prop}

theorem of_bool {value : Bool} (same : value = true ↔ holds) :
    Decides (.ok value : Except ε Bool) holds False where
  raises broken := broken.elim
  yes _ true_ := by
    rw [same.mpr true_]
  no _ false_ := by
    rw [Bool.eq_false_iff.mpr fun true_ => false_ (same.mp true_)]

theorem refused (whole : ¬ breaks) (wrong : ¬ holds) :
    Decides (.ok false : Except ε Bool) holds breaks where
  raises broken := absurd broken whole
  yes _ right := absurd right wrong
  no _ _ := rfl

theorem both (first : Decides outcome holds breaks)
    (second : holds → ¬ breaks → Decides next more late) :
    Decides (Checklist.both outcome next) (holds ∧ more)
      (breaks ∨ holds ∧ late) where
  raises broken := by
    by_cases early : breaks
    · rcases first.raises early with ⟨raised, failed⟩
      exact ⟨raised, by rw [Checklist.both, failed]; rfl⟩
    · rcases broken with broken | ⟨reached, broken⟩
      · exact absurd broken early
      · rcases (second reached early).raises broken with ⟨raised, failed⟩
        exact ⟨raised, by rw [Checklist.both, first.yes early reached]; exact failed⟩
  yes whole both := by
    have early : ¬ breaks := fun broken => whole (.inl broken)
    have rest := (second both.1 early).yes (fun broken => whole (.inr ⟨both.1, broken⟩)) both.2
    rw [Checklist.both, first.yes early both.1]
    exact rest
  no whole neither := by
    have early : ¬ breaks := fun broken => whole (.inl broken)
    by_cases reached : holds
    · have rest := (second reached early).no (fun broken => whole (.inr ⟨reached, broken⟩))
        fun last => neither ⟨reached, last⟩
      rw [Checklist.both, first.yes early reached]
      exact rest
    · rw [first.no early reached]
      rfl

theorem congr {holds' breaks' : Prop} (check : Decides outcome holds breaks)
    (same : holds ↔ holds') (broken : breaks ↔ breaks') : Decides outcome holds' breaks' := by
  rwa [← propext same, ← propext broken]

end Decides

/-- One of the checks breaks, and those before it are passed. -/
def FirstBreaks (holds breaks : α → Prop) : List α → Prop
  | [] => False
  | item :: rest => breaks item ∨ holds item ∧ FirstBreaks holds breaks rest

theorem Decides.allM {check : α → Except ε Bool} {holds breaks : α → Prop} {items : List α}
    (each : ∀ item ∈ items, Decides (check item) (holds item) (breaks item)) :
    Decides (items.allM check) (∀ item ∈ items, holds item)
      (FirstBreaks holds breaks items) := by
  induction items with
  | nil => exact of_bool (by simp)
  | cons item rest induction =>
      have both := (each item List.mem_cons_self).both fun _ _ =>
        induction fun other member => each other (List.mem_cons_of_mem _ member)
      have step : (item :: rest).allM check =
          Checklist.both (check item) (rest.allM check) := by
        rw [List.allM, Checklist.both]
        congr 1
        funext answer
        cases answer <;> rfl
      rw [step]
      exact both.congr List.forall_mem_cons.symm Iff.rfl

end Homelab.Checklist
