/-! # Traces of a transition system

A system takes one enabled event after another. Its trace keeps every event it took, with
the state the event was taken in.
-/

namespace Homelab.Effects

/-- An event, and the state it was taken in. -/
structure Taken (State Event : Type) where
  before : State
  event : Event

variable {State Event : Type}

/-- `Reaches step start trace finish`: the events of the trace, taken in order from
`start`, lead to `finish`. An event is enabled where `step` has a next state for it. -/
inductive Reaches (step : State → Event → Option State) (start : State) :
    List (Taken State Event) → State → Prop
  | start : Reaches step start [] start
  | next {trace : List (Taken State Event)} {middle finish : State}
      (earlier : Reaches step start trace middle) (event : Event)
      (enabled : step middle event = some finish) :
      Reaches step start (trace ++ [⟨middle, event⟩]) finish

namespace Reaches

variable {step : State → Event → Option State} {start finish : State}
  {trace : List (Taken State Event)}

/-- What holds at the start and is kept by every event holds wherever a trace leads. -/
theorem invariant (inv : List (Taken State Event) → State → Prop) (initially : inv [] start)
    (kept : ∀ past middle event finish, inv past middle → step middle event = some finish →
      inv (past ++ [⟨middle, event⟩]) finish)
    (run : Reaches step start trace finish) : inv trace finish := by
  induction run with
  | start => exact initially
  | next earlier event enabled induction => exact kept _ _ event _ induction enabled

/-- What came before an event of a trace led to the state the event was taken in. -/
theorem upTo {earlier later : List (Taken State Event)} {taken : Taken State Event}
    (run : Reaches step start trace finish) (split : trace = earlier ++ taken :: later) :
    Reaches step start earlier taken.before ∧
      ∃ next, step taken.before taken.event = some next := by
  induction run generalizing later with
  | start => simp at split
  | @next trace middle finish run event enabled induction =>
      rcases List.eq_nil_or_concat later with none_ | ⟨front, last, some_⟩
      · subst later
        have same := List.append_inj' split rfl
        have taken_ : ⟨middle, event⟩ = taken := by simpa using same.2
        subst taken_
        rw [← same.1]
        exact ⟨run, finish, enabled⟩
      · subst later
        have same : trace ++ [⟨middle, event⟩] = (earlier ++ taken :: front) ++ [last] := by
          simpa using split
        exact induction (List.append_inj' same rfl).1

end Reaches

end Homelab.Effects
