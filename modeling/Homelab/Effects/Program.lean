import Mathlib.Tactic.TypeStar

/-! # Programs that ask the outside world

A program is a tree of operations. Each operation is answered from outside, and
the rest of the program depends on the answer alone. Nothing here says which
answers are possible or what an operation does; that is the business of a
`System`.
-/

namespace Homelab.Effects

/-- The operations a program may ask for, each with the type of its answer. -/
structure Interface where
  Operation : Type
  Answer : Operation → Type

/-- A program over an interface: either finished with a result, or waiting for
the answer to one operation. -/
inductive Program (interface : Interface) (Result : Type) : Type
  | done (result : Result)
  | call (operation : interface.Operation)
      (next : interface.Answer operation → Program interface Result)

namespace Program

variable {interface : Interface} {α β γ : Type}

def bind : Program interface α → (α → Program interface β) →
    Program interface β
  | .done result, next => next result
  | .call operation rest, next =>
      .call operation fun answer => (rest answer).bind next

instance : Monad (Program interface) where
  pure := .done
  bind := .bind

def perform (operation : interface.Operation) :
    Program interface (interface.Answer operation) :=
  .call operation .done

@[simp] theorem pure_eq_done (result : α) :
    (pure result : Program interface α) = .done result := rfl

@[simp] theorem done_bind (result : α) (next : α → Program interface β) :
    (Program.done result >>= next) = next result := rfl

@[simp] theorem call_bind (operation : interface.Operation)
    (rest : interface.Answer operation → Program interface α)
    (next : α → Program interface β) :
    (Program.call operation rest >>= next) =
      .call operation fun answer => rest answer >>= next := rfl

@[simp] theorem perform_bind (operation : interface.Operation)
    (next : interface.Answer operation → Program interface β) :
    (perform operation >>= next) = .call operation next := rfl

theorem bind_done (program : Program interface α) :
    (program >>= Program.done) = program := by
  induction program with
  | done result => rfl
  | call operation rest induction =>
      rw [call_bind]
      congr
      funext answer
      exact induction answer

theorem bind_assoc (program : Program interface α)
    (next : α → Program interface β) (last : β → Program interface γ) :
    ((program >>= next) >>= last) =
      (program >>= fun result => next result >>= last) := by
  induction program with
  | done result => rfl
  | call operation rest induction =>
      simp only [call_bind]
      congr
      funext answer
      exact induction answer

instance : LawfulMonad (Program interface) :=
  LawfulMonad.mk' (Program interface)
    (fun program => bind_done program)
    (fun _ _ => rfl)
    (fun program next last => bind_assoc program next last)

end Program

end Homelab.Effects
