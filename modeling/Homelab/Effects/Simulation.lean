import Homelab.Effects.Within

/-! # Taking executions apart and putting others together

The parts of an execution can be replaced one by one: by another execution of
the same part, or by the same answers in a related world.
-/

namespace Homelab.Effects

variable {interface : Interface} {World Error α β : Type}
  {system : System interface World} {allowed : interface.Operation → Prop}

namespace Executes

theorem operations {ends : α → Prop} {program : Program interface α}
    {world final : World} {moments : List (Moment interface World)}
    {outcome : Option α} (within : program.Within allowed ends)
    (execution : Executes system program world moments final outcome) :
    ∀ moment ∈ moments, allowed moment.operation := by
  induction execution with
  | killed => simp
  | done => simp
  | call step rest induction =>
      intro moment member
      rcases List.mem_cons.mp member with first | later
      · rw [first]
        exact within.1
      · exact induction (within.2 _) moment later

theorem ends {ends : α → Prop} {program : Program interface α}
    {world final : World} {moments : List (Moment interface World)} {result : α}
    (within : program.Within allowed ends)
    (execution : Executes system program world moments final (some result)) :
    ends result := by
  generalize ended : some result = outcome at execution
  induction execution with
  | killed => cases ended
  | done =>
      cases ended
      exact within
  | call step rest induction => exact induction (within.2 _) ended

/-- What each allowed operation leaves as it is, an execution leaves as it is. -/
theorem preserves {ends : α → Prop} {State : Type} (observe : World → State)
    {program : Program interface α} {world final : World}
    {moments : List (Moment interface World)} {outcome : Option α}
    (within : program.Within allowed ends)
    (same : ∀ world operation answer after, allowed operation →
      system.Step world operation answer after → observe after = observe world)
    (execution : Executes system program world moments final outcome) :
    observe final = observe world := by
  induction execution with
  | killed => rfl
  | done => rfl
  | call step rest induction =>
      exact (induction (within.2 _)).trans (same _ _ _ _ within.1 step)

end Executes

/-- Related worlds can answer each allowed operation alike and stay related. -/
def Mirrors (system : System interface World)
    (allowed : interface.Operation → Prop) (related : World → World → Prop) : Prop :=
  ∀ world mirror operation answer after, allowed operation → related world mirror →
    system.Step world operation answer after →
    ∃ mirrored, system.Step mirror operation answer mirrored ∧ related after mirrored

theorem Executes.mirror {related : World → World → Prop} {ends : α → Prop}
    {program : Program interface α} {world mirror final : World}
    {moments : List (Moment interface World)} {outcome : Option α}
    (mirrors : Mirrors system allowed related) (within : program.Within allowed ends)
    (start : related world mirror)
    (execution : Executes system program world moments final outcome) :
    ∃ moments' final', Executes system program mirror moments' final' outcome ∧
      related final final' := by
  induction execution generalizing mirror with
  | killed => exact ⟨[], mirror, .killed _ _, start⟩
  | done => exact ⟨[], mirror, .done _ _, start⟩
  | call step rest induction =>
      have ⟨mirrored, step', next⟩ := mirrors _ _ _ _ _ within.1 start step
      have ⟨moments', final', execution', last⟩ := induction (within.2 _) next
      exact ⟨_ :: moments', final', .call step' execution', last⟩

namespace Attempt

/-- An attempt that ends does so in its first part, with an error, or goes on
with the second. -/
theorem executes_bind_inv {attempt : Attempt interface Error α}
    {rest : α → Attempt interface Error β} {world final : World}
    {moments : List (Moment interface World)} {outcome : Except Error β}
    (execution : Executes system (attempt >>= rest).run world moments final
      (some outcome)) :
    (∃ error, outcome = .error error ∧
      Executes system attempt.run world moments final (some (.error error))) ∨
    ∃ value first middle second,
      Executes system attempt.run world first middle (some (.ok value)) ∧
      Executes system (rest value).run middle second final (some outcome) ∧
      moments = first ++ second := by
  rw [ExceptT.run_bind] at execution
  have ⟨first, middle, result, second, earlier, later, split⟩ := execution.bind_some_inv
  cases result with
  | ok value => exact .inr ⟨value, first, middle, second, earlier, later, split⟩
  | error error =>
      have ⟨nothing, same, ended⟩ := later.done_inv
      have outcomeIs := ended.resolve_left nofun
      refine .inl ⟨error, Option.some.inj outcomeIs, ?_⟩
      rw [split, nothing, List.append_nil, same]
      exact earlier

theorem executes_bind {attempt : Attempt interface Error α}
    {rest : α → Attempt interface Error β} {world middle final : World}
    {first second : List (Moment interface World)} {value : α}
    {outcome : Option (Except Error β)}
    (earlier : Executes system attempt.run world first middle (some (.ok value)))
    (later : Executes system (rest value).run middle second final outcome) :
    Executes system (attempt >>= rest).run world (first ++ second) final outcome := by
  rw [ExceptT.run_bind]
  exact earlier.bind later

/-- A steady first part is always gone through. -/
theorem executes_steady_inv {attempt : Attempt interface Error α}
    {rest : α → Attempt interface Error β} {world final : World}
    {moments : List (Moment interface World)} {outcome : Except Error β}
    (steady : attempt.Steady allowed)
    (execution : Executes system (attempt >>= rest).run world moments final
      (some outcome)) :
    ∃ value first middle second,
      Executes system attempt.run world first middle (some (.ok value)) ∧
      Executes system (rest value).run middle second final (some outcome) ∧
      moments = first ++ second := by
  rcases executes_bind_inv execution with ⟨error, _, failed⟩ | completed
  · have ⟨result, impossible⟩ := failed.ends steady
    cases impossible
  · exact completed

theorem executes_perform_inv {operation : interface.Operation}
    {rest : interface.Answer operation → Attempt interface Error β}
    {world final : World} {moments : List (Moment interface World)}
    {outcome : Except Error β}
    (execution : Executes system
      ((ExceptT.lift (.call operation .done) : Attempt interface Error _) >>= rest).run
      world moments final (some outcome)) :
    ∃ answer after later, system.Step world operation answer after ∧
      Executes system (rest answer).run after later final (some outcome) ∧
      moments = ⟨world, operation, answer, after⟩ :: later := by
  change Executes system (.call operation fun answer => (rest answer).run) _ _ _ _
    at execution
  cases execution with
  | call step later => exact ⟨_, _, _, step, later, rfl⟩

theorem executes_perform {operation : interface.Operation}
    {rest : interface.Answer operation → Attempt interface Error β}
    {world after final : World} {later : List (Moment interface World)}
    {outcome : Option (Except Error β)} {answer : interface.Answer operation}
    (step : system.Step world operation answer after)
    (execution : Executes system (rest answer).run after later final outcome) :
    Executes system
      ((ExceptT.lift (.call operation .done) : Attempt interface Error _) >>= rest).run
      world (⟨world, operation, answer, after⟩ :: later) final outcome :=
  .call step execution

end Attempt

end Homelab.Effects
