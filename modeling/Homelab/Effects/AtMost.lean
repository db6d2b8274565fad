import Homelab.Effects.Within

/-! # How often a program asks

A bound on how often the operations of one kind are asked for, along every path of a program. It
adds up over sequences, and every execution keeps to it.
-/

namespace Homelab.Effects

variable {interface : Interface} {World Error α β : Type} {counted : interface.Operation → Bool}

/-- On every path the program asks at most `bound` times for an operation that is `counted`. -/
def Program.AtMost (counted : interface.Operation → Bool) : Program interface α → Nat → Prop
  | .done _, _ => True
  | .call operation next, bound => (counted operation).toNat ≤ bound ∧
      ∀ answer, Program.AtMost counted (next answer) (bound - (counted operation).toNat)

namespace Program

theorem AtMost.mono {program : Program interface α} {bound more : Nat}
    (atMost : program.AtMost counted bound) (le : bound ≤ more) :
    program.AtMost counted more := by
  induction program generalizing bound more with
  | done result => trivial
  | call operation next induction =>
      exact ⟨Nat.le_trans atMost.1 le, fun answer =>
        induction answer (atMost.2 answer) (Nat.sub_le_sub_right le _)⟩

theorem AtMost.bind {program : Program interface α} {next : α → Program interface β}
    {first second : Nat} (earlier : program.AtMost counted first)
    (later : ∀ result, (next result).AtMost counted second) :
    (program >>= next).AtMost counted (first + second) := by
  induction program generalizing first with
  | done result => exact (later result).mono (Nat.le_add_left _ _)
  | call operation rest induction =>
      refine ⟨Nat.le_trans earlier.1 (Nat.le_add_right _ _), fun answer => ?_⟩
      rw [Nat.sub_add_comm earlier.1]
      exact induction answer (earlier.2 answer)

/-- A program that keeps to other operations asks for none of these. -/
theorem Within.atMost {program : Program interface α} {ends : α → Prop}
    (within : program.Within (fun operation => counted operation = false) ends) :
    program.AtMost counted 0 := by
  induction program with
  | done result => trivial
  | call operation next induction =>
      simp only [AtMost, within.1]
      exact ⟨Nat.le_refl 0, fun answer => induction answer (within.2 answer)⟩

end Program

theorem Attempt.atMost_bind {attempt : Attempt interface Error α}
    {rest : α → Attempt interface Error β} {first second : Nat}
    (earlier : attempt.run.AtMost counted first)
    (later : ∀ result, (rest result).run.AtMost counted second) :
    (attempt >>= rest).run.AtMost counted (first + second) := by
  rw [ExceptT.run_bind]
  refine earlier.bind fun outcome => ?_
  cases outcome with
  | ok result => exact later result
  | error error => trivial

/-- What asks for none of them may stand before what does, and after it. -/
theorem Attempt.atMost_after {attempt : Attempt interface Error α}
    {rest : α → Attempt interface Error β} {bound : Nat}
    (quiet : Within (fun operation => counted operation = false) attempt)
    (later : ∀ result, (rest result).run.AtMost counted bound) :
    (attempt >>= rest).run.AtMost counted bound := by
  have parts := atMost_bind (Program.Within.atMost quiet) later
  rwa [Nat.zero_add] at parts

theorem Attempt.atMost_before {attempt : Attempt interface Error α}
    {rest : α → Attempt interface Error β} {bound : Nat}
    (earlier : attempt.run.AtMost counted bound)
    (quiet : ∀ result, Within (fun operation => counted operation = false) (rest result)) :
    (attempt >>= rest).run.AtMost counted bound :=
  atMost_bind earlier fun result => Program.Within.atMost (quiet result)

theorem Attempt.atMost_outcome {attempt : Attempt interface Error α} {bound : Nat}
    (atMost : attempt.run.AtMost counted bound) :
    (outcome attempt).run.AtMost counted bound := by
  rw [outcome, ExceptT.run_lift, ← bind_pure_comp]
  have ended (result : Except Error α) : Program.AtMost counted
      (pure (.ok result) : Program interface (Except Error (Except Error α))) 0 := trivial
  exact atMost.bind ended

/-- An execution asks no more often than its program. -/
theorem Executes.countP_le {system : System interface World} {program : Program interface α}
    {world final : World} {moments : List (Moment interface World)} {outcome : Option α}
    {bound : Nat} (execution : Executes system program world moments final outcome)
    (atMost : program.AtMost counted bound) :
    (moments.countP fun moment => counted moment.operation) ≤ bound := by
  induction execution generalizing bound with
  | killed => simp
  | done => simp
  | @call operation next world answer after moments final outcome step rest induction =>
      have fewer := induction (atMost.2 answer)
      have room : (counted operation).toNat ≤ bound := atMost.1
      rw [List.countP_cons]
      cases asked : counted operation with
      | false =>
          simp only [asked, Bool.toNat_false] at fewer
          simpa using fewer
      | true =>
          simp only [asked, Bool.toNat_true] at fewer room
          simp only [if_true]
          omega

/-- What is asked for once has one answer. -/
theorem eq_of_countP_le_one {moments : List (Moment interface World)}
    {first second : Moment interface World}
    (once : (moments.countP fun moment => counted moment.operation) ≤ 1)
    (member : first ∈ moments) (member' : second ∈ moments)
    (asked : counted first.operation = true) (asked' : counted second.operation = true) :
    first = second := by
  have found : first ∈ moments.filter fun moment => counted moment.operation :=
    List.mem_filter.mpr ⟨member, asked⟩
  have found' : second ∈ moments.filter fun moment => counted moment.operation :=
    List.mem_filter.mpr ⟨member', asked'⟩
  rw [List.countP_eq_length_filter] at once
  cases kept : moments.filter fun moment => counted moment.operation with
  | nil => simp [kept] at found
  | cons only rest =>
      have none : rest = [] := by simpa [kept] using once
      simp_all

end Homelab.Effects
