import Homelab.Effects.Execution

/-! # A logic for programs that may be killed anywhere

`Guarded` is a weakest precondition that also speaks about every operation on
the way: `good past moment` has to hold at each moment, where `past` is what
happened before it, latest moment first. Because it is checked at each moment,
it holds however early the program is killed.
-/

namespace Homelab.Effects

variable {interface : Interface} {World α β : Type}

/-- What happened so far, latest moment first. -/
abbrev Past (interface : Interface) (World : Type) :=
  List (Moment interface World)

def Guarded (system : System interface World)
    (good : Past interface World → Moment interface World → Prop)
    (post : Past interface World → World → α → Prop) :
    Program interface α → Past interface World → World → Prop
  | .done result, past, world => post past world result
  | .call operation next, past, world =>
      ∀ answer after, system.Step world operation answer after →
        good past ⟨world, operation, answer, after⟩ ∧
          Guarded system good post (next answer)
            (⟨world, operation, answer, after⟩ :: past) after

namespace Guarded

variable {system : System interface World}
  {good good' : Past interface World → Moment interface World → Prop}
  {past : Past interface World} {world : World}

@[simp] theorem done_iff {post : Past interface World → World → α → Prop}
    {result : α} :
    Guarded system good post (.done result) past world ↔
      post past world result := Iff.rfl

@[simp] theorem call_iff {post : Past interface World → World → α → Prop}
    {operation : interface.Operation}
    {next : interface.Answer operation → Program interface α} :
    Guarded system good post (.call operation next) past world ↔
      ∀ answer after, system.Step world operation answer after →
        good past ⟨world, operation, answer, after⟩ ∧
          Guarded system good post (next answer)
            (⟨world, operation, answer, after⟩ :: past) after := Iff.rfl

theorem bind_iff {post : Past interface World → World → β → Prop}
    {program : Program interface α} {next : α → Program interface β} :
    Guarded system good post (program >>= next) past world ↔
      Guarded system good
        (fun past world result => Guarded system good post (next result) past world)
        program past world := by
  induction program generalizing past world with
  | done result => exact Iff.rfl
  | call operation rest induction =>
      simp only [Program.call_bind, call_iff, induction]

theorem mono {post post' : Past interface World → World → α → Prop}
    {program : Program interface α}
    (guarded : Guarded system good post program past world)
    (better : ∀ past moment, good past moment → good' past moment)
    (stronger : ∀ past world result, post past world result →
      post' past world result) :
    Guarded system good' post' program past world := by
  induction program generalizing past world with
  | done result => exact stronger past world result guarded
  | call operation rest induction =>
      intro answer after step
      rcases guarded answer after step with ⟨now, later⟩
      exact ⟨better _ _ now, induction answer later⟩

theorem post_mono {post post' : Past interface World → World → α → Prop}
    {program : Program interface α}
    (guarded : Guarded system good post program past world)
    (stronger : ∀ past world result, post past world result →
      post' past world result) :
    Guarded system good post' program past world :=
  guarded.mono (fun _ _ now => now) stronger

/-- Two things that hold of a program hold of it together. -/
theorem both {post post' : Past interface World → World → α → Prop}
    {program : Program interface α}
    (first : Guarded system good post program past world)
    (second : Guarded system good' post' program past world) :
    Guarded system (fun past moment => good past moment ∧ good' past moment)
      (fun past world result => post past world result ∧ post' past world result)
      program past world := by
  induction program generalizing past world with
  | done result => exact ⟨first, second⟩
  | call operation rest induction =>
      intro answer after step
      rcases first answer after step with ⟨now, later⟩
      rcases second answer after step with ⟨now', later'⟩
      exact ⟨⟨now, now'⟩, induction answer later later'⟩

/-- What happened before is still in the past of everything that follows. -/
theorem grows {post : Past interface World → World → α → Prop}
    {program : Program interface α} {before : Past interface World}
    (guarded : Guarded system good post program past world) (start : before <:+ past) :
    Guarded system (fun past moment => before <:+ past ∧ good past moment)
      (fun past world result => before <:+ past ∧ post past world result)
      program past world := by
  induction program generalizing past world with
  | done result => exact ⟨start, guarded⟩
  | call operation rest induction =>
      intro answer after step
      rcases guarded answer after step with ⟨now, later⟩
      exact ⟨⟨start, now⟩, induction answer later (start.trans (List.suffix_cons _ _))⟩

/-- The sequencing rule: prove the first program with an intermediate
condition, and the second from that condition. -/
theorem bind {middle : Past interface World → World → α → Prop}
    {post : Past interface World → World → β → Prop}
    {program : Program interface α} {next : α → Program interface β}
    (first : Guarded system good middle program past world)
    (second : ∀ past world result, middle past world result →
      Guarded system good post (next result) past world) :
    Guarded system good post (program >>= next) past world :=
  bind_iff.mpr (first.post_mono second)

/-- Sequencing when only the executions of the first program matter. -/
theorem of_executes {post : Past interface World → World → α → Prop}
    {program : Program interface α}
    (each : ∀ earlier moment later final outcome,
      Executes system program world (earlier ++ moment :: later) final outcome →
      good (earlier.reverse ++ past) moment)
    (completed : ∀ moments final result,
      Executes system program world moments final (some result) →
      post (moments.reverse ++ past) final result) :
    Guarded system good post program past world := by
  induction program generalizing past world with
  | done result => exact completed [] world result (.done result world)
  | call operation rest induction =>
      intro answer after step
      refine ⟨each [] _ [] after none (.call step (.killed _ _)), induction answer ?_ ?_⟩
      · intro earlier moment later final outcome execution
        have now := each (_ :: earlier) moment later final outcome
          (.call step execution)
        simpa using now
      · intro moments final result execution
        have now := completed (_ :: moments) final result (.call step execution)
        simpa using now

/-- Every moment of an execution is good, whether it was killed or not. -/
theorem moment_good {post : Past interface World → World → α → Prop}
    {program : Program interface α}
    (guarded : Guarded system good post program past world)
    {moments : List (Moment interface World)} {final : World}
    {outcome : Option α}
    (execution : Executes system program world moments final outcome)
    {earlier later : List (Moment interface World)}
    {moment : Moment interface World}
    (split : moments = earlier ++ moment :: later) :
    good (earlier.reverse ++ past) moment := by
  induction execution generalizing past earlier with
  | killed => simp at split
  | done => simp at split
  | call step rest induction =>
      rcases guarded _ _ step with ⟨now, remaining⟩
      cases earlier with
      | nil =>
          simp only [List.nil_append, List.cons.injEq] at split
          rw [← split.1]
          exact now
      | cons head tail =>
          simp only [List.cons_append, List.cons.injEq] at split
          rw [← split.1]
          simpa using induction remaining split.2

/-- Every completed execution ends in the postcondition. -/
theorem result {post : Past interface World → World → α → Prop}
    {program : Program interface α}
    (guarded : Guarded system good post program past world)
    {moments : List (Moment interface World)} {final : World} {value : α}
    (execution : Executes system program world moments final (some value)) :
    post (moments.reverse ++ past) final value := by
  generalize ended : some value = outcome at execution
  induction execution generalizing past with
  | killed => cases ended
  | done =>
      cases ended
      exact guarded
  | call step rest induction =>
      simpa using induction (guarded _ _ step).2 ended

/-- A completed program has been executed. -/
theorem recorded {post : Past interface World → World → α → Prop}
    {program : Program interface α}
    (guarded : Guarded system good post program past world) :
    Guarded system good (fun past' world' result => post past' world' result ∧
      ∃ moments, past' = moments.reverse ++ past ∧
        Executes system program world moments world' (some result)) program past world := by
  apply of_executes
  · intro earlier moment later final outcome execution
    exact guarded.moment_good execution rfl
  · intro moments final result execution
    exact ⟨guarded.result execution, moments, rfl, execution⟩

end Guarded

end Homelab.Effects
