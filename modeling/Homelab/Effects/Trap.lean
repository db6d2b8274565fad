import Homelab.Effects.Guarded

/-! # Scripts with traps

A signal that comes while a command runs is acted upon when the command is over. Where it is
trapped, the handler runs and the script goes on with its next command; where it is not, the
script ends there. Signals that come while the handler runs are counted with the command the
handler follows, and make it run again.
-/

namespace Homelab.Effects.Trap

/-- The commands of a script, with what they come back with, and the actions of its
handler. -/
structure Shell where
  Command : Type
  Value : Command → Type
  Action : Type

/-- What a command comes back with, and how many signals came. -/
structure Reply (α : Type) where
  value : α
  signals : Nat

inductive Operation (shell : Shell) : Type
  | run (command : shell.Command)
  | act (action : shell.Action)

def calls (shell : Shell) : Interface where
  Operation := Operation shell
  Answer
    | .run command => Reply (shell.Value command)
    | .act _ => Unit

abbrev Script (shell : Shell) := Program (calls shell) Unit

variable {shell : Shell} {World : Type}

def handle (handler : Script shell) : (signals : Nat) → Script shell
  | 0 => .done ()
  | signals + 1 => handler >>= fun _ => handle handler signals

def trapped (handler : Script shell) (command : shell.Command)
    (next : shell.Value command → Script shell) : Script shell :=
  .call (.run command) fun reply =>
    handle handler reply.signals >>= fun _ => next reply.value

def untrapped (command : shell.Command) (next : shell.Value command → Script shell) :
    Script shell :=
  .call (.run command) fun reply => if reply.signals = 0 then next reply.value else .done ()

def act (action : shell.Action) : Script shell := .call (.act action) fun _ => .done ()

/-! ## Rules -/

/-- Where the script ends, `post` holds. -/
abbrev Ends (system : System (calls shell) World)
    (post : Past (calls shell) World → World → Prop) (script : Script shell)
    (past : Past (calls shell) World) (world : World) : Prop :=
  Guarded system (fun _ _ => True) (fun past world _ => post past world) script past world

section Rules

variable {system : System (calls shell) World} {handler : Script shell}
  {post keeps : Past (calls shell) World → World → Prop} {past : Past (calls shell) World}
  {world : World}

theorem ends_done (holds : post past world) : Ends system post (.done ()) past world := holds

theorem ends_act {action : shell.Action}
    (each : ∀ after, system.Step world (.act action) () after →
      post (⟨world, .act action, (), after⟩ :: past) after) :
    Ends system post (act action) past world :=
  fun _ after step => ⟨trivial, each after step⟩

theorem ends_bind {first second : Script shell} (starts : Ends system keeps first past world)
    (goes : ∀ past world, keeps past world → Ends system post second past world) :
    Ends system post (first >>= fun _ => second) past world :=
  Guarded.bind starts fun past world _ kept => goes past world kept

/-- What one run of the handler keeps, all of them keep. -/
theorem ends_handle (kept : keeps past world)
    (again : ∀ past world, keeps past world → Ends system keeps handler past world)
    (signals : Nat) : Ends system keeps (handle handler signals) past world := by
  induction signals generalizing past world with
  | zero => exact ends_done kept
  | succ signals induction =>
      exact ends_bind (again past world kept) fun past world kept => induction kept

/-- A trapped command, with something its handler keeps. -/
theorem ends_trapped {command : shell.Command} {next : shell.Value command → Script shell}
    (keeps : Reply (shell.Value command) → Past (calls shell) World → World → Prop)
    (starts : ∀ (reply : Reply (shell.Value command)) after,
      system.Step world (.run command) reply after →
        keeps reply (⟨world, .run command, reply, after⟩ :: past) after)
    (again : ∀ reply past world, keeps reply past world →
      Ends system (keeps reply) handler past world)
    (goes : ∀ (reply : Reply (shell.Value command)) past world, keeps reply past world →
      Ends system post (next reply.value) past world) :
    Ends system post (trapped handler command next) past world := by
  intro reply after step
  refine ⟨trivial, ends_bind (ends_handle (starts reply after step) (again reply) _) ?_⟩
  exact goes reply

/-- A trapped command that no signal interrupts, and one that a signal does. -/
theorem ends_trapped_cases {command : shell.Command}
    {next : shell.Value command → Script shell}
    (keeps : Reply (shell.Value command) → Past (calls shell) World → World → Prop)
    (quiet : ∀ (reply : Reply (shell.Value command)) after,
      system.Step world (.run command) reply after → reply.signals = 0 →
        Ends system post (next reply.value) (⟨world, .run command, reply, after⟩ :: past) after)
    (first : ∀ (reply : Reply (shell.Value command)) after,
      system.Step world (.run command) reply after → 0 < reply.signals →
        Ends system (keeps reply) handler (⟨world, .run command, reply, after⟩ :: past) after)
    (again : ∀ reply past world, keeps reply past world →
      Ends system (keeps reply) handler past world)
    (goes : ∀ (reply : Reply (shell.Value command)) past world, 0 < reply.signals →
      keeps reply past world → Ends system post (next reply.value) past world) :
    Ends system post (trapped handler command next) past world := by
  rintro ⟨value, signals⟩ after step
  refine ⟨trivial, ?_⟩
  cases signals with
  | zero => exact quiet ⟨value, 0⟩ after step rfl
  | succ signals =>
      have some_ : 0 < (⟨value, signals + 1⟩ : Reply (shell.Value command)).signals := by simp
      change Ends system post
        ((handler >>= fun _ => handle handler signals) >>= fun _ => next value) _ after
      rw [Program.bind_assoc]
      refine ends_bind (first _ after step some_) fun past world kept => ?_
      refine ends_bind (ends_handle kept (again _) signals) ?_
      exact fun past world kept => goes _ past world some_ kept

theorem ends_untrapped {command : shell.Command}
    {next : shell.Value command → Script shell}
    (dies : ∀ (reply : Reply (shell.Value command)) after,
      system.Step world (.run command) reply after → 0 < reply.signals →
        post (⟨world, .run command, reply, after⟩ :: past) after)
    (goes : ∀ (reply : Reply (shell.Value command)) after,
      system.Step world (.run command) reply after → reply.signals = 0 →
        Ends system post (next reply.value) (⟨world, .run command, reply, after⟩ :: past)
          after) :
    Ends system post (untrapped command next) past world := by
  intro reply after step
  refine ⟨trivial, ?_⟩
  by_cases quiet : reply.signals = 0
  · simpa [quiet] using goes reply after step quiet
  · simpa [quiet] using dies reply after step (by omega)

end Rules

end Homelab.Effects.Trap
