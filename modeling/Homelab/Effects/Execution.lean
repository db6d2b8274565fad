import Homelab.Effects.Program
import Mathlib.Data.List.Basic

/-! # Executions of programs in a world

A `System` says how the world can answer an operation and what the world is
afterwards. An execution records every operation with the world around it, and
may stop between any two operations: that is a killed program.
-/

namespace Homelab.Effects

/-- `Step world operation answer after`: asked for `operation`, the world may
answer `answer` and become `after`. -/
structure System (interface : Interface) (World : Type) where
  Step : World → (operation : interface.Operation) →
    interface.Answer operation → World → Prop

/-- One answered operation, with the world before and after it. -/
structure Moment (interface : Interface) (World : Type) where
  before : World
  operation : interface.Operation
  answer : interface.Answer operation
  after : World

variable {interface : Interface} {World α β : Type}

/-- `Executes system program world moments final outcome`: from `world` the
program can go through `moments` and leave the world at `final`. The outcome is
`none` when the program was killed there. -/
inductive Executes (system : System interface World) :
    Program interface α → World → List (Moment interface World) → World →
      Option α → Prop
  | killed (program world) : Executes system program world [] world none
  | done (result world) :
      Executes system (.done result) world [] world (some result)
  | call {operation next world answer after moments final outcome}
      (step : system.Step world operation answer after)
      (rest : Executes system (next answer) after moments final outcome) :
      Executes system (.call operation next) world
        (⟨world, operation, answer, after⟩ :: moments) final outcome

namespace Executes

variable {system : System interface World}

theorem done_inv {result : α} {world final : World}
    {moments : List (Moment interface World)} {outcome : Option α}
    (execution : Executes system (.done result) world moments final outcome) :
    moments = [] ∧ final = world ∧ (outcome = none ∨ outcome = some result) := by
  cases execution with
  | killed => exact ⟨rfl, rfl, .inl rfl⟩
  | done => exact ⟨rfl, rfl, .inr rfl⟩

/-- An execution of a sequence was killed in its first program, or completed
the first program and went on with the second. -/
theorem bind_inv {program : Program interface α}
    {next : α → Program interface β} {world final : World}
    {moments : List (Moment interface World)} {outcome : Option β}
    (execution : Executes system (program >>= next) world moments final outcome) :
    (outcome = none ∧ Executes system program world moments final none) ∨
      ∃ first middle result second,
        Executes system program world first middle (some result) ∧
        Executes system (next result) middle second final outcome ∧
        moments = first ++ second := by
  induction program generalizing world moments with
  | done result =>
      exact .inr ⟨[], world, result, moments, .done result world, execution, rfl⟩
  | call operation rest induction =>
      cases execution with
      | killed => exact .inl ⟨rfl, .killed _ _⟩
      | call step later =>
          rcases induction _ later with ⟨killed, earlier⟩ |
            ⟨first, middle, result, second, earlier, last, rfl⟩
          · exact .inl ⟨killed, .call step earlier⟩
          · exact .inr ⟨_ :: first, middle, result, second,
              .call step earlier, last, rfl⟩

theorem bind {program : Program interface α}
    {next : α → Program interface β} {world middle final : World}
    {first second : List (Moment interface World)} {result : α}
    {outcome : Option β}
    (earlier : Executes system program world first middle (some result))
    (later : Executes system (next result) middle second final outcome) :
    Executes system (program >>= next) world (first ++ second) final outcome := by
  induction program generalizing world first with
  | done value =>
      cases earlier with
      | done => exact later
  | call operation rest induction =>
      cases earlier with
      | call step earlier => exact .call step (induction _ earlier)

theorem steps {program : Program interface α} {world final : World}
    {moments : List (Moment interface World)} {outcome : Option α}
    (execution : Executes system program world moments final outcome) :
    ∀ moment ∈ moments,
      system.Step moment.before moment.operation moment.answer moment.after := by
  induction execution with
  | killed => simp
  | done => simp
  | call step rest induction => exact List.forall_mem_cons.mpr ⟨step, induction⟩

/-- What every moment keeps holds where the program ends or is killed. -/
theorem keeps {inv : World → Prop} {program : Program interface α} {world final : World}
    {moments : List (Moment interface World)} {outcome : Option α}
    (execution : Executes system program world moments final outcome)
    (each : ∀ moment ∈ moments,
      system.Step moment.before moment.operation moment.answer moment.after →
      inv moment.before → inv moment.after)
    (start : inv world) : inv final := by
  induction execution with
  | killed => exact start
  | done => exact start
  | call step rest induction =>
      exact induction (fun moment member => each moment (List.mem_cons_of_mem _ member))
        (each _ List.mem_cons_self step start)

theorem bind_some_inv {program : Program interface α}
    {next : α → Program interface β} {world final : World}
    {moments : List (Moment interface World)} {result : β}
    (execution :
      Executes system (program >>= next) world moments final (some result)) :
    ∃ first middle value second,
      Executes system program world first middle (some value) ∧
      Executes system (next value) middle second final (some result) ∧
      moments = first ++ second := by
  rcases execution.bind_inv with ⟨impossible, _⟩ | completed
  · cases impossible
  · exact completed

end Executes

/-! ## Narrowing a system -/

/-- The same system, with only the moments that satisfy `keep`. -/
def System.restrict (system : System interface World)
    (keep : Moment interface World → Prop) : System interface World where
  Step world operation answer after :=
    system.Step world operation answer after ∧
      keep ⟨world, operation, answer, after⟩

theorem Executes.restrict {system : System interface World}
    {keep : Moment interface World → Prop} {program : Program interface α}
    {world final : World} {moments : List (Moment interface World)}
    {outcome : Option α}
    (execution : Executes system program world moments final outcome)
    (kept : ∀ moment ∈ moments, keep moment) :
    Executes (system.restrict keep) program world moments final outcome := by
  induction execution with
  | killed => exact .killed _ _
  | done => exact .done _ _
  | call step rest induction =>
      exact .call ⟨step, kept _ (by simp)⟩
        (induction fun moment member => kept moment (by simp [member]))

theorem Executes.widen {system wider : System interface World}
    {program : Program interface α} {world final : World}
    {moments : List (Moment interface World)} {outcome : Option α}
    (execution : Executes system program world moments final outcome)
    (each : ∀ world operation answer after, system.Step world operation answer after →
      wider.Step world operation answer after) :
    Executes wider program world moments final outcome := by
  induction execution with
  | killed => exact .killed _ _
  | done => exact .done _ _
  | call step rest induction => exact .call (each _ _ _ _ step) induction

/-! ## Running a program against an oracle

An oracle fixes the answers and the worlds, so a program can be evaluated on a
concrete scenario. `fuel` is the number of operations after which the program
is killed. -/

/-- How one scenario answers, given what happened so far (latest first). -/
abbrev Oracle (interface : Interface) (World : Type) :=
  List (Moment interface World) → World →
    (operation : interface.Operation) → interface.Answer operation × World

def simulate (oracle : Oracle interface World) :
    Nat → Program interface α → List (Moment interface World) → World →
      List (Moment interface World) × World × Option α
  | _, .done result, _, world => ([], world, some result)
  | 0, .call _ _, _, world => ([], world, none)
  | fuel + 1, .call operation next, past, world =>
      let reply := oracle past world operation
      let moment := ⟨world, operation, reply.1, reply.2⟩
      let rest := simulate oracle fuel (next reply.1) (moment :: past) reply.2
      (moment :: rest.1, rest.2)

/-- Whatever it is asked, the oracle replies as the system may. -/
def Permitted (system : System interface World) (oracle : Oracle interface World) :
    Prop :=
  ∀ past world operation, system.Step world operation
    (oracle past world operation).1 (oracle past world operation).2

theorem Permitted.restrict {system : System interface World}
    {keep : Moment interface World → Prop} {oracle : Oracle interface World}
    (permitted : Permitted system oracle)
    (each : ∀ past world operation, keep ⟨world, operation,
      (oracle past world operation).1, (oracle past world operation).2⟩) :
    Permitted (system.restrict keep) oracle :=
  fun past world operation =>
    ⟨permitted past world operation, each past world operation⟩

theorem simulate_executes {system : System interface World}
    {oracle : Oracle interface World} (permitted : Permitted system oracle)
    (fuel : Nat) (program : Program interface α)
    (past : List (Moment interface World)) (world : World) :
    Executes system program world (simulate oracle fuel program past world).1
      (simulate oracle fuel program past world).2.1
      (simulate oracle fuel program past world).2.2 := by
  induction fuel generalizing program past world with
  | zero =>
      cases program with
      | done result => exact .done result world
      | call operation next => exact .killed _ _
  | succ fuel induction =>
      cases program with
      | done result => exact .done result world
      | call operation next =>
          exact .call (permitted past world operation) (induction _ _ _)

/-- What every reply of the oracle satisfies, every moment of a simulation does. -/
theorem simulate_each {oracle : Oracle interface World}
    {keep : Moment interface World → Prop}
    (each : ∀ past world operation, keep ⟨world, operation,
      (oracle past world operation).1, (oracle past world operation).2⟩)
    (fuel : Nat) (program : Program interface α)
    (past : List (Moment interface World)) (world : World) :
    ∀ moment ∈ (simulate oracle fuel program past world).1, keep moment := by
  induction fuel generalizing program past world with
  | zero => cases program <;> simp [simulate]
  | succ fuel induction =>
      cases program with
      | done result => simp [simulate]
      | call operation next =>
          intro moment member
          rcases List.mem_cons.mp member with first | later
          · rw [first]
            exact each past world operation
          · exact induction _ _ _ moment later

/-- Where every operation can be answered, every program can end. -/
theorem Executes.exists_of_replies {system : System interface World} {inv : World → Prop}
    (replies : ∀ world operation, inv world →
      ∃ answer after, system.Step world operation answer after ∧ inv after)
    (program : Program interface α) {world : World} (start : inv world) :
    ∃ moments final result, Executes system program world moments final (some result) := by
  induction program generalizing world with
  | done result => exact ⟨[], world, result, .done result world⟩
  | call operation next induction =>
      have ⟨answer, after, step, holds⟩ := replies world operation start
      have ⟨moments, final, result, rest⟩ := induction answer holds
      exact ⟨_, final, result, .call step rest⟩

theorem Executes.exists_completed {system : System interface World}
    {keep : Moment interface World → Prop} (oracle : Oracle interface World)
    (permitted : Permitted (system.restrict keep) oracle)
    (program : Program interface α) (world : World) :
    ∃ moments final result, Executes (system.restrict keep) program world moments
      final (some result) := by
  have replies (world : World) (operation : interface.Operation) (_ : True) :
      ∃ answer after, (system.restrict keep).Step world operation answer after ∧ True :=
    ⟨_, _, permitted [] world operation, trivial⟩
  exact Executes.exists_of_replies replies program trivial

end Homelab.Effects
