import Homelab.Effects.Guarded

/-! # Histories of runs

A history runs a program again and again, each time with its own parameter,
each run starting in the world the previous one left behind. A run that was
killed is followed by the next run like any other.
-/

namespace Homelab.Effects

variable {interface : Interface} {World Parameter α : Type}

structure Run (interface : Interface) (World Parameter α : Type) where
  parameter : Parameter
  before : World
  moments : List (Moment interface World)
  after : World
  outcome : Option α

namespace Run

def Valid (system : System interface World)
    (program : Parameter → Program interface α)
    (run : Run interface World Parameter α) : Prop :=
  Executes system (program run.parameter) run.before run.moments run.after
    run.outcome

def Completed (run : Run interface World Parameter α) : Prop :=
  run.outcome.isSome = true

def momentsOf (runs : List (Run interface World Parameter α)) :
    List (Moment interface World) :=
  runs.flatMap Run.moments

@[simp] theorem momentsOf_nil :
    momentsOf ([] : List (Run interface World Parameter α)) = [] := rfl

@[simp] theorem momentsOf_append
    (runs more : List (Run interface World Parameter α)) :
    momentsOf (runs ++ more) = momentsOf runs ++ momentsOf more := by
  simp [momentsOf]

@[simp] theorem momentsOf_singleton (run : Run interface World Parameter α) :
    momentsOf [run] = run.moments := by
  simp [momentsOf]

end Run

/-- `History system program initial runs final`: starting from `initial`, the
runs followed each other and the last one left `final`. -/
inductive History (system : System interface World)
    (program : Parameter → Program interface α) (initial : World) :
    List (Run interface World Parameter α) → World → Prop
  | start : History system program initial [] initial
  | next {runs middle}
      (earlier : History system program initial runs middle)
      (run : Run interface World Parameter α)
      (continues : run.before = middle)
      (valid : run.Valid system program) :
      History system program initial (runs ++ [run]) run.after

namespace History

variable {system : System interface World}
  {program : Parameter → Program interface α} {initial final : World}
  {runs : List (Run interface World Parameter α)}

/-- A history whose moments all satisfy `keep` is one of the narrower system. -/
theorem restrict {keep : Moment interface World → Prop}
    (history : History system program initial runs final)
    (kept : ∀ moment ∈ Run.momentsOf runs, keep moment) :
    History (system.restrict keep) program initial runs final := by
  induction history with
  | start => exact .start
  | next earlier run continues valid induction =>
      refine .next (induction ?_) run continues (valid.restrict ?_)
      · intro moment member
        exact kept moment (by simp [member])
      · intro moment member
        exact kept moment (by simp [member])

/-- An invariant kept at every moment of a run holds wherever the run ends. -/
theorem inv_after {inv : Past interface World → World → Prop}
    {good : Past interface World → Moment interface World → Prop}
    {program : Program interface α} {past : Past interface World}
    {world final : World} {moments : List (Moment interface World)}
    {outcome : Option α}
    (guarded : Guarded system
      (fun past moment => good past moment ∧ inv (moment :: past) moment.after)
      (fun past world _ => inv past world) program past world)
    (starts : inv past world)
    (execution : Executes system program world moments final outcome) :
    inv (moments.reverse ++ past) final := by
  induction execution generalizing past with
  | killed => exact starts
  | done => exact starts
  | call step rest induction =>
      rcases guarded _ _ step with ⟨⟨_, kept⟩, remaining⟩
      simpa using induction remaining kept

/-- The rule for histories with kills. If each run, started where `inv` holds,
keeps `inv` at every moment and only goes through good moments, then so does
the whole history, and `inv` holds where it ends. -/
theorem guarded (inv : Past interface World → World → Prop)
    (good : Past interface World → Moment interface World → Prop)
    (initially : inv [] initial)
    (each : ∀ parameter past world, inv past world →
      Guarded system
        (fun past moment => good past moment ∧ inv (moment :: past) moment.after)
        (fun past world _ => inv past world) (program parameter) past world)
    (history : History system program initial runs final) :
    inv (Run.momentsOf runs).reverse final ∧
      ∀ earlier moment later,
        Run.momentsOf runs = earlier ++ moment :: later →
        good earlier.reverse moment ∧
          inv (moment :: earlier.reverse) moment.after := by
  induction history with
  | start => exact ⟨initially, fun earlier moment later split => by simp at split⟩
  | @next runs middle earlier run continues valid induction =>
      rcases induction with ⟨holds, goodEarlier⟩
      have starts : inv (Run.momentsOf runs).reverse run.before := by
        rw [continues]
        exact holds
      have guarded := each run.parameter _ _ starts
      refine ⟨?_, ?_⟩
      · simp only [Run.momentsOf_append, Run.momentsOf_singleton,
          List.reverse_append]
        exact inv_after guarded starts valid
      · intro before moment after split
        simp only [Run.momentsOf_append, Run.momentsOf_singleton] at split
        rcases List.append_eq_append_iff.mp split with
          ⟨rest, beforeEqual, runEqual⟩ | ⟨rest, runsEqual, restEqual⟩
        · subst beforeEqual
          simpa using guarded.moment_good valid runEqual
        · cases rest with
          | nil =>
              simp only [List.append_nil] at runsEqual
              have first : run.moments = [] ++ moment :: after := by
                simpa using restEqual.symm
              simpa [runsEqual] using guarded.moment_good valid first
          | cons head tail =>
              simp only [List.cons_append, List.cons.injEq] at restEqual
              rw [restEqual.1]
              exact goodEarlier before head tail runsEqual

/-- What came before one of the runs is a history that ends where it starts. -/
theorem split {before after : List (Run interface World Parameter α)}
    {run : Run interface World Parameter α}
    (history : History system program initial (before ++ run :: after) final) :
    History system program initial before run.before ∧
      run.Valid system program := by
  generalize together : before ++ run :: after = runs at history
  induction history generalizing after with
  | start => simp at together
  | next earlier last continues valid induction =>
      rcases List.eq_nil_or_concat after with nothing | ⟨rest, final, equal⟩
      · subst nothing
        have parts := List.append_inj' together rfl
        have same : run = last := by simpa using parts.2
        subst same
        rw [parts.1, continues]
        exact ⟨earlier, valid⟩
      · subst equal
        rw [List.concat_eq_append, ← List.cons_append, ← List.append_assoc]
          at together
        exact induction (List.append_inj' together rfl).1

/-- The rule for histories without kills: an invariant of whole runs. -/
theorem invariant (inv : List (Run interface World Parameter α) → World → Prop)
    (initially : inv [] initial)
    (each : ∀ runs run, inv runs run.before → run.Valid system program →
      run.Completed → inv (runs ++ [run]) run.after)
    (history : History system program initial runs final)
    (completed : ∀ run ∈ runs, run.Completed) :
    inv runs final := by
  induction history with
  | start => exact initially
  | next earlier run continues valid induction =>
      refine each _ run ?_ valid (completed run (by simp))
      rw [continues]
      exact induction fun run member => completed run (by simp [member])

end History

end Homelab.Effects
