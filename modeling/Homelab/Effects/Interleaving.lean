import Homelab.Effects.Execution
import Mathlib.Logic.Function.Basic

/-! # Programs that run next to each other

Several processes share a world. Every turn is one operation of one of them, and a process that
is killed takes no more turns.
-/

namespace Homelab.Effects

variable {interface : Interface} {World Process Claim α : Type} [DecidableEq Process]

structure Turn (interface : Interface) (World Process : Type) where
  process : Process
  moment : Moment interface World

/-- `Interleaves system programs start turns rest world`: the processes took these turns, are
left with the rest of their programs, and the world is as it is now. -/
inductive Interleaves (system : System interface World)
    (programs : Process → Program interface α) (start : World) :
    List (Turn interface World Process) → (Process → Program interface α) → World → Prop
  | start : Interleaves system programs start [] programs start
  | next {turns rest world} (earlier : Interleaves system programs start turns rest world)
      (process : Process) {operation : interface.Operation}
      {next : interface.Answer operation → Program interface α}
      (waits : rest process = .call operation next) {answer : interface.Answer operation}
      {after : World} (step : system.Step world operation answer after) :
      Interleaves system programs start (turns ++ [⟨process, world, operation, answer, after⟩])
        (Function.update rest process (next answer)) after

/-! ## Ownership -/

/-- What is known of the processes: each holds a claim, it is in a stage that its claim and its
program go with, and the claims are apart. -/
structure Held (stage : Process → Claim → Program interface α →
      List (Turn interface World Process) → World → Prop)
    (apart : Claim → Claim → Prop) (claims : Process → Claim)
    (rest : Process → Program interface α) (turns : List (Turn interface World Process))
    (world : World) : Prop where
  stages : ∀ process, stage process (claims process) (rest process) turns world
  apart : ∀ process other, process ≠ other → apart (claims process) (claims other)

/-- One turn: the process moves on to another stage with another claim, and whoever has claims
apart from the old one stays in its stage and is apart from the new one. -/
structure Moves (stage : Process → Claim → Program interface α →
      List (Turn interface World Process) → World → Prop)
    (apart : Claim → Claim → Prop)
    (shared : List (Turn interface World Process) → World → Prop)
    (turns : List (Turn interface World Process)) (world : World) (process : Process)
    (claim claim' : Claim) (program : Program interface α)
    (turn : Turn interface World Process) (after : World) : Prop where
  own : stage process claim' program (turns ++ [turn]) after
  shared : shared (turns ++ [turn]) after
  others : ∀ other held program, other ≠ process → apart claim held → apart held claim →
    stage other held program turns world →
    stage other held program (turns ++ [turn]) after ∧ apart claim' held ∧ apart held claim'

/-- The rule of ownership: what every turn of every process keeps, given the stage the process
is in, holds after every interleaving. -/
theorem Interleaves.held (fair : List (Turn interface World Process) → Prop)
    (claims : Process → Claim) {system : System interface World}
    {programs rest : Process → Program interface α} {start world : World}
    {turns : List (Turn interface World Process)}
    {stage : Process → Claim → Program interface α →
      List (Turn interface World Process) → World → Prop}
    {apart : Claim → Claim → Prop}
    {shared : List (Turn interface World Process) → World → Prop}
    (interleaves : Interleaves system programs start turns rest world)
    (initially : Held stage apart claims programs [] start) (initiallyShared : shared [] start)
    (earlier : ∀ turns turn, fair (turns ++ [turn]) → fair turns)
    (moves : ∀ turns world process claim operation next answer after, shared turns world →
      stage process claim (.call operation next) turns world →
      system.Step world operation answer after →
      fair (turns ++ [⟨process, world, operation, answer, after⟩]) →
      ∃ claim', Moves stage apart shared turns world process claim claim' (next answer)
        ⟨process, world, operation, answer, after⟩ after)
    (fairly : fair turns) :
    (∃ claims, Held stage apart claims rest turns world) ∧ shared turns world := by
  induction interleaves with
  | start => exact ⟨⟨claims, initially⟩, initiallyShared⟩
  | @next turns rest world before process operation next waits answer after step induction =>
      rcases induction (earlier _ _ fairly) with ⟨⟨claims, held⟩, now⟩
      have here := held.stages process
      rw [waits] at here
      rcases moves _ _ _ _ _ _ _ _ now here step fairly with ⟨claim', moved⟩
      refine ⟨⟨Function.update claims process claim', fun other => ?_, fun one other apart_ => ?_⟩,
        moved.shared⟩
      · by_cases same : other = process
        · subst same
          rw [Function.update_self, Function.update_self]
          exact moved.own
        · rw [Function.update_of_ne same, Function.update_of_ne same]
          exact (moved.others other _ _ same (held.apart _ _ (Ne.symm same))
            (held.apart _ _ same) (held.stages other)).1
      · by_cases first : one = process
        · subst first
          rw [Function.update_self, Function.update_of_ne (Ne.symm apart_)]
          exact (moved.others other _ _ (Ne.symm apart_) (held.apart _ _ apart_)
            (held.apart _ _ (Ne.symm apart_)) (held.stages other)).2.1
        · rw [Function.update_of_ne first]
          by_cases second : other = process
          · subst second
            rw [Function.update_self]
            exact (moved.others one _ _ first (held.apart _ _ (Ne.symm first))
              (held.apart _ _ first) (held.stages one)).2.2
          · rw [Function.update_of_ne second]
            exact held.apart one other apart_

/-- An interleaving can go on with an execution of what one of its processes has left. -/
theorem Interleaves.extend {system : System interface World}
    {programs rest : Process → Program interface α} {start world final : World}
    {turns : List (Turn interface World Process)} {moments : List (Moment interface World)}
    {outcome : Option α} (interleaves : Interleaves system programs start turns rest world)
    (process : Process)
    (execution : Executes system (rest process) world moments final outcome) :
    ∃ rest', Interleaves system programs start
        (turns ++ moments.map fun moment => ⟨process, moment⟩) rest' final ∧
      ∀ result, outcome = some result → rest' = Function.update rest process (.done result) := by
  generalize left : rest process = program at execution
  induction execution generalizing turns rest with
  | killed =>
      refine ⟨rest, ?_, fun _ impossible => nomatch impossible⟩
      simpa using interleaves
  | done result =>
      refine ⟨rest, ?_, fun other same => ?_⟩
      · simpa using interleaves
      · rw [← Option.some.inj same, ← left, Function.update_eq_self]
  | call step later induction =>
      obtain ⟨rest', whole, ends⟩ :=
        induction (interleaves.next process left step) (Function.update_self _ _ _)
      refine ⟨rest', ?_, fun result same => ?_⟩
      · simpa using whole
      · rw [ends result same, Function.update_idem]

theorem Interleaves.append {system : System interface World}
    {programs rest : Process → Program interface α} {start world final : World}
    {turns : List (Turn interface World Process)} {moments : List (Moment interface World)}
    {result : α} (interleaves : Interleaves system programs start turns rest world)
    (process : Process)
    (execution : Executes system (rest process) world moments final (some result)) :
    Interleaves system programs start (turns ++ moments.map fun moment => ⟨process, moment⟩)
      (Function.update rest process (.done result)) final := by
  rcases interleaves.extend process execution with ⟨rest', whole, ends⟩
  rwa [ends result rfl] at whole

end Homelab.Effects
