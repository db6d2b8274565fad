import Homelab.Effects.History
import Mathlib.Data.List.Forall2

/-! # Operations that are programs

An operation of one interface can be a whole program over another, that may be killed halfway.
Where each such program does what its operation is said to do, or has done nothing yet when it is
killed, whatever is proved of the program over the operations holds one level below.
-/

namespace Homelab.Effects

abbrev Interface.sum (left right : Interface) : Interface where
  Operation := left.Operation ⊕ right.Operation
  Answer
    | .inl operation => left.Answer operation
    | .inr operation => right.Answer operation

section

variable {low high : Interface} {Low High Parameter Event α β : Type}

namespace Program

/-- The program with each operation replaced by what implements it. -/
def interpret (handle : ∀ operation : high.Operation, Program low (high.Answer operation)) :
    Program high α → Program low α
  | .done result => .done result
  | .call operation next => (handle operation).bind fun answer => (next answer).interpret handle

def inl {right : Interface} : Program low α → Program (low.sum right) α
  | .done result => .done result
  | .call operation next => .call (.inl operation) fun answer => (next answer).inl

end Program

def noticed (observe : Moment low Low → Option Event) (moments : List (Moment low Low)) :
    List Event := moments.filterMap observe

/-- Seen from above, the program does one step: with its answer if it ends, and if it is killed
it has done that or nothing. -/
structure Does (lower : System low Low) (program : Program low β) (shows : Low → High → Prop)
    (step : High → β → High → Prop) (below : Moment low Low → Option Event)
    (event : High → β → High → Option Event) : Prop where
  completes : ∀ {state final world moments answer}, shows state world →
    Executes lower program state moments final (some answer) →
    ∃ after, step world answer after ∧ shows final after ∧
      noticed below moments = (event world answer after).toList
  killed : ∀ {state final world moments}, shows state world →
    Executes lower program state moments final none →
    (shows final world ∧ noticed below moments = []) ∨
      ∃ answer after, step world answer after ∧ shows final after ∧
        noticed below moments = (event world answer after).toList

/-- Each operation is done by what is put in its place. -/
def Implements (lower : System low Low) (upper : System high High)
    (handle : ∀ operation : high.Operation, Program low (high.Answer operation))
    (shows : Low → High → Prop) (below : Moment low Low → Option Event)
    (above : Moment high High → Option Event) : Prop :=
  ∀ operation, Does lower (handle operation) shows
    (fun world answer after => upper.Step world operation answer after) below
    fun world answer after => above ⟨world, operation, answer, after⟩

variable {lower : System low Low} {upper : System high High}
  {handle : ∀ operation : high.Operation, Program low (high.Answer operation)}
  {shows : Low → High → Prop} {below : Moment low Low → Option Event}
  {above : Moment high High → Option Event}

theorem noticed_append (observe : Moment low Low → Option Event)
    (first second : List (Moment low Low)) :
    noticed observe (first ++ second) = noticed observe first ++ noticed observe second :=
  List.filterMap_append

theorem noticed_cons (observe : Moment low Low → Option Event) (moment : Moment low Low)
    (moments : List (Moment low Low)) :
    noticed observe (moment :: moments) =
      (observe moment).toList ++ noticed observe moments := by
  rw [noticed, List.filterMap_cons]
  cases observe moment <;> rfl

theorem noticed_singleton (observe : Moment low Low → Option Event) (moment : Moment low Low) :
    noticed observe [moment] = (observe moment).toList :=
  (noticed_cons observe moment []).trans (List.append_nil _)

/-- Every execution below is one above, with the same outcome and the same to be seen. -/
theorem Implements.executes (implements : Implements lower upper handle shows below above)
    {program : Program high α} {state final : Low} {world : High}
    {moments : List (Moment low Low)} {outcome : Option α} (starts : shows state world)
    (execution : Executes lower (program.interpret handle) state moments final outcome) :
    ∃ moments' after, Executes upper program world moments' after outcome ∧ shows final after ∧
      noticed below moments = noticed above moments' := by
  induction program generalizing state world moments with
  | done result =>
      have ⟨nothing, same, ended⟩ := execution.done_inv
      subst nothing same
      rcases ended with killed | done
      · exact ⟨[], world, killed ▸ .killed _ _, starts, rfl⟩
      · exact ⟨[], world, done ▸ .done _ _, starts, rfl⟩
  | call operation next induction =>
      have parts : Executes lower (handle operation >>= fun answer =>
          (next answer).interpret handle) state moments final outcome := execution
      rcases parts.bind_inv with
        ⟨killed, part⟩ | ⟨first, middle, answer, second, part, later, split⟩
      · subst killed
        rcases (implements operation).killed starts part with
          ⟨still, unseen⟩ | ⟨answer, after, step, now, seen⟩
        · exact ⟨[], world, .killed _ _, still, unseen⟩
        · refine ⟨_, after, .call step (.killed _ _), now, ?_⟩
          rw [seen, noticed_cons]
          exact (List.append_nil _).symm
      · rcases (implements operation).completes starts part with ⟨after, step, now, seen⟩
        rcases induction answer now later with ⟨moments', last, rest, ends, same⟩
        refine ⟨_, last, .call step rest, ends, ?_⟩
        rw [split, noticed_append, seen, same, noticed_cons]

/-- Two runs with the same parameter and outcome, and the same to be seen. -/
structure Alike (below : Moment low Low → Option Event) (above : Moment high High → Option Event)
    (run : Run low Low Parameter α) (run' : Run high High Parameter α) : Prop where
  parameter : run.parameter = run'.parameter
  outcome : run.outcome = run'.outcome
  seen : noticed below run.moments = noticed above run'.moments

/-- Every history below is one above, run by run. -/
theorem Implements.history (implements : Implements lower upper handle shows below above)
    {program : Parameter → Program high α} {initial final : Low} {world : High}
    {runs : List (Run low Low Parameter α)} (starts : shows initial world)
    (history : History lower (fun parameter => (program parameter).interpret handle) initial runs
      final) :
    ∃ runs' after, History upper program world runs' after ∧ shows final after ∧
      List.Forall₂ (Alike below above) runs runs' := by
  induction history with
  | start => exact ⟨[], world, .start, starts, .nil⟩
  | next earlier run continues valid induction =>
      rcases induction with ⟨runs', middle, history', shown, agree⟩
      rw [← continues] at shown
      rcases implements.executes shown valid with ⟨moments', after, execution, ends, same⟩
      have next : History upper program world
          (runs' ++ [⟨run.parameter, middle, moments', after, run.outcome⟩]) after :=
        .next history' ⟨run.parameter, middle, moments', after, run.outcome⟩ rfl execution
      exact ⟨_, after, next, ends, List.rel_append agree (.cons ⟨rfl, rfl, same⟩ .nil)⟩

/-! ## Side by side -/

section

variable {right : Interface} {system : System low Low} {both : System (low.sum right) Low}

def Moment.ofLeft (moment : Moment low Low) : Moment (low.sum right) Low :=
  ⟨moment.before, .inl moment.operation, moment.answer, moment.after⟩

/-- A program that asks the left interface only is executed there. -/
theorem Executes.inl_inv {program : Program low α} {world final : Low}
    {moments : List (Moment (low.sum right) Low)} {outcome : Option α}
    (same : ∀ world operation answer after,
      both.Step world (.inl operation) answer after → system.Step world operation answer after)
    (execution : Executes both (program.inl : Program (low.sum right) α) world moments final
      outcome) :
    ∃ moments', Executes system program world moments' final outcome ∧
      moments = moments'.map Moment.ofLeft := by
  induction program generalizing world moments with
  | done result =>
      have ⟨nothing, stays, ended⟩ := execution.done_inv
      subst nothing stays
      rcases ended with killed | done
      · exact ⟨[], killed ▸ .killed _ _, rfl⟩
      · exact ⟨[], done ▸ .done _ _, rfl⟩
  | call operation next induction =>
      cases execution with
      | killed => exact ⟨[], .killed _ _, rfl⟩
      | call step later =>
          rcases induction _ later with ⟨moments', rest, mapped⟩
          exact ⟨_, .call (same _ _ _ _ step) rest, by rw [mapped]; rfl⟩

end

end

end Homelab.Effects
