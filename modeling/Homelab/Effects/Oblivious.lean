import Homelab.Effects.Execution

/-! # Programs that learn nothing

An oblivious program asks for the same operations and ends in the same result whatever it is
answered, so two of its executions cannot be told apart by what they do.
-/

namespace Homelab.Effects

variable {interface : Interface} {α : Type}

/-- Whatever the answers, the program asks for these operations and ends in this result. -/
def Program.Oblivious (result : α) :
    List interface.Operation → Program interface α → Prop
  | operations, .done ended => operations = [] ∧ ended = result
  | operations, .call operation next =>
      ∃ rest, operations = operation :: rest ∧
        ∀ answer, Program.Oblivious result rest (next answer)

def asked {World : Type} (moments : List (Moment interface World)) : List interface.Operation :=
  moments.map Moment.operation

variable {World : Type} {system : System interface World} {program : Program interface α}
  {result : α} {operations : List interface.Operation}

theorem Program.Oblivious.bind {β : Type} {next : α → Program interface β} {result' : β}
    {operations' : List interface.Operation} (first : program.Oblivious result operations)
    (second : (next result).Oblivious result' operations') :
    (program >>= next).Oblivious result' (operations ++ operations') := by
  induction program generalizing operations with
  | done ended =>
      rcases first with ⟨none_, same⟩
      subst none_ same
      exact second
  | call operation rest induction =>
      rcases first with ⟨more, split, later⟩
      subst split
      exact ⟨more ++ operations', rfl, fun answer => induction answer (later answer)⟩

/-- An execution asks for the operations of its program in order, and for all of them if it
is not cut short. -/
theorem Program.Oblivious.executes (oblivious : program.Oblivious result operations)
    {world final : World} {moments : List (Moment interface World)} {outcome : Option α}
    (execution : Executes system program world moments final outcome) :
    asked moments <+: operations ∧
      ∀ ended, outcome = some ended → asked moments = operations ∧ ended = result := by
  induction execution generalizing operations with
  | killed => exact ⟨List.nil_prefix, by simp⟩
  | done ended =>
      rcases oblivious with ⟨none_, same⟩
      subst none_ same
      exact ⟨List.nil_prefix, by simp [asked, eq_comm]⟩
  | call step rest induction =>
      rcases oblivious with ⟨more, split, next⟩
      have later := induction (next _)
      subst split
      refine ⟨List.cons_prefix_cons.mpr ⟨rfl, later.1⟩, fun ended completes => ?_⟩
      rcases later.2 ended completes with ⟨all, same⟩
      exact ⟨congrArg (List.cons _) all, same⟩

/-- Two executions of an oblivious program do the same, in whatever worlds they run. -/
theorem Program.Oblivious.agree (oblivious : program.Oblivious result operations)
    {Other : Type} {other : System interface Other} {world final : World}
    {world' final' : Other} {moments : List (Moment interface World)}
    {moments' : List (Moment interface Other)} {ended ended' : α}
    (execution : Executes system program world moments final (some ended))
    (execution' : Executes other program world' moments' final' (some ended')) :
    asked moments = asked moments' ∧ ended = ended' := by
  have one := (oblivious.executes execution).2 ended rfl
  have two := (oblivious.executes execution').2 ended' rfl
  exact ⟨one.1.trans two.1.symm, one.2.trans two.2.symm⟩

end Homelab.Effects
