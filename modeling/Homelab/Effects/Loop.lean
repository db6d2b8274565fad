import Homelab.Effects.Attempt

/-! # Loops

A loop runs the same body for ever, each pass on the state the previous pass
returned. What is seen of it is a number of complete passes and then one that may
be cut anywhere, or end in an error.
-/

namespace Homelab.Effects

variable {interface : Interface} {World State Error : Type}

structure Pass (interface : Interface) (World State : Type) where
  start : State
  before : World
  moments : List (Moment interface World)
  finish : State
  after : World

def Pass.Valid (system : System interface World)
    (body : State → Attempt interface Error State)
    (pass : Pass interface World State) : Prop :=
  Executes system (body pass.start).run pass.before pass.moments pass.after
    (some (.ok pass.finish))

inductive Passes (system : System interface World)
    (body : State → Attempt interface Error State) (start : State)
    (initial : World) :
    List (Pass interface World State) → State → World → Prop
  | none : Passes system body start initial [] start initial
  | next {passes state world}
      (earlier : Passes system body start initial passes state world)
      (pass : Pass interface World State)
      (continuesState : pass.start = state) (continuesWorld : pass.before = world)
      (valid : pass.Valid system body) :
      Passes system body start initial (passes ++ [pass]) pass.finish pass.after

/-- What is seen of a loop: the passes it completed, and the moments of the pass
it is in. -/
structure LoopRun (system : System interface World)
    (body : State → Attempt interface Error State) (start : State)
    (initial : World) where
  passes : List (Pass interface World State)
  state : State
  world : World
  completed : Passes system body start initial passes state world
  moments : List (Moment interface World)
  final : World
  outcome : Option (Except Error State)
  current : Executes system (body state).run world moments final outcome

/-- A moment of two parts is in the second, or already in the first. -/
theorem split_cases {α : Type} {first second earlier later : List α} {moment : α}
    (split : first ++ second = earlier ++ moment :: later) :
    (∃ rest, earlier = first ++ rest ∧ second = rest ++ moment :: later) ∨
      ∃ rest, first = earlier ++ moment :: rest := by
  rcases List.append_eq_append_iff.mp split with
    ⟨rest, earlierIs, secondIs⟩ | ⟨rest, firstIs, restIs⟩
  · exact .inl ⟨rest, earlierIs, secondIs⟩
  · cases rest with
    | nil =>
        rw [List.append_nil] at firstIs
        exact .inl ⟨[], by rw [firstIs, List.append_nil], restIs.symm⟩
    | cons head tail =>
        rw [List.cons_append, List.cons.injEq] at restIs
        exact .inr ⟨tail, by rw [firstIs, restIs.1]⟩

theorem split_parts {α : Type} {first second earlier later : List α} {moment : α}
    (split : first ++ second = earlier ++ moment :: later) :
    (∃ rest, earlier = first ++ rest ∧ second = rest ++ moment :: later) ∨
      moment ∈ first := by
  refine (split_cases split).imp id ?_
  rintro ⟨rest, rfl⟩
  simp

def Pass.momentsOf (passes : List (Pass interface World State)) :
    List (Moment interface World) :=
  passes.flatMap Pass.moments

@[simp] theorem Pass.momentsOf_nil :
    Pass.momentsOf ([] : List (Pass interface World State)) = [] := rfl

@[simp] theorem Pass.momentsOf_append (passes more : List (Pass interface World State)) :
    Pass.momentsOf (passes ++ more) = Pass.momentsOf passes ++ Pass.momentsOf more := by
  simp [momentsOf]

@[simp] theorem Pass.momentsOf_singleton (pass : Pass interface World State) :
    Pass.momentsOf [pass] = pass.moments := by
  simp [momentsOf]

namespace Passes

variable {system : System interface World}
  {body : State → Attempt interface Error State} {start state : State}
  {initial world : World} {passes : List (Pass interface World State)}

/-- The loop rule: what each complete pass preserves holds after any number of
passes. -/
theorem invariant
    (inv : List (Pass interface World State) → State → World → Prop)
    (initially : inv [] start initial)
    (each : ∀ passes pass, inv passes pass.start pass.before →
      pass.Valid system body → inv (passes ++ [pass]) pass.finish pass.after)
    (loop : Passes system body start initial passes state world) :
    inv passes state world := by
  induction loop with
  | none => exact initially
  | next earlier pass continuesState continuesWorld valid induction =>
      refine each _ pass ?_ valid
      rw [continuesState, continuesWorld]
      exact induction

theorem valid_of_mem (loop : Passes system body start initial passes state world) :
    ∀ pass ∈ passes, pass.Valid system body := by
  refine invariant (fun passes _ _ => ∀ pass ∈ passes, pass.Valid system body) (by simp)
    ?_ loop
  intro passes pass each valid
  exact List.forall_mem_append.mpr ⟨each, List.forall_mem_singleton.mpr valid⟩

theorem restrict {keep : Moment interface World → Prop}
    (loop : Passes system body start initial passes state world)
    (kept : ∀ moment ∈ Pass.momentsOf passes, keep moment) :
    Passes (system.restrict keep) body start initial passes state world := by
  induction loop with
  | none => exact .none
  | next earlier pass continuesState continuesWorld valid induction =>
      refine .next (induction ?_) pass continuesState continuesWorld
        (Executes.restrict valid ?_)
      · intro moment member
        exact kept moment (by simp [member])
      · intro moment member
        exact kept moment (by simp [member])

end Passes

/-- A condition that each pass keeps, and under which its moments are good. -/
def Maintains (system : System interface World)
    (body : State → Attempt interface Error State)
    (inv : Past interface World → State → World → Prop)
    (good : Past interface World → Moment interface World → Prop) : Prop :=
  ∀ past state world, inv past state world →
    Attempt.Guarded system good (fun past world next => inv past next world)
      (fun _ _ _ => True) (body state) past world

namespace LoopRun

variable {system : System interface World}
  {body : State → Attempt interface Error State} {start : State} {initial : World}

def past (run : LoopRun system body start initial) : Past interface World :=
  (Pass.momentsOf run.passes).reverse

def trace (run : LoopRun system body start initial) : List (Moment interface World) :=
  Pass.momentsOf run.passes ++ run.moments

/-- What came before a moment of the current pass is part of the run. -/
theorem mem_trace {run : LoopRun system body start initial}
    {earlier later : List (Moment interface World)} {moment : Moment interface World}
    (split : run.moments = earlier ++ later)
    (member : moment ∈ earlier.reverse ++ run.past) : moment ∈ run.trace := by
  rw [trace, split]
  simp only [past, List.mem_append, List.mem_reverse] at member ⊢
  rcases member with member | member
  · exact .inr (.inl member)
  · exact .inl member

theorem inv_past {inv : Past interface World → State → World → Prop}
    {good : Past interface World → Moment interface World → Prop}
    (maintains : Maintains system body inv good) (initially : inv [] start initial)
    (run : LoopRun system body start initial) : inv run.past run.state run.world := by
  refine Passes.invariant
    (fun passes state world => inv (Pass.momentsOf passes).reverse state world)
    initially ?_ run.completed
  intro passes pass holds valid
  rw [Pass.momentsOf_append, Pass.momentsOf_singleton, List.reverse_append]
  exact (maintains _ _ _ holds).result valid

/-- A loop goes only through good moments if each pass does. -/
theorem good_of {inv : Past interface World → State → World → Prop}
    {good : Past interface World → Moment interface World → Prop}
    (maintains : Maintains system body inv good) (initially : inv [] start initial)
    (run : LoopRun system body start initial)
    {earlier later : List (Moment interface World)}
    {moment : Moment interface World}
    (split : run.moments = earlier ++ moment :: later) :
    good (earlier.reverse ++ run.past) moment :=
  (maintains _ _ _ (inv_past maintains initially run)).moment_good run.current split

/-- Everything a loop goes through is good where it happened, if each pass keeps to that. -/
theorem good_of_trace {inv : Past interface World → State → World → Prop}
    {good : Past interface World → Moment interface World → Prop}
    (maintains : Maintains system body inv good) (initially : inv [] start initial)
    (run : LoopRun system body start initial) {earlier later : List (Moment interface World)}
    {moment : Moment interface World} (split : run.trace = earlier ++ moment :: later) :
    good earlier.reverse moment := by
  have passed : inv run.past run.state run.world ∧ ∀ earlier moment later,
      Pass.momentsOf run.passes = earlier ++ moment :: later → good earlier.reverse moment := by
    refine Passes.invariant
      (fun passes state world => inv (Pass.momentsOf passes).reverse state world ∧
        ∀ earlier moment later, Pass.momentsOf passes = earlier ++ moment :: later →
          good earlier.reverse moment)
      ⟨initially, by simp⟩ ?_ run.completed
    intro passes pass holds valid
    rw [Pass.momentsOf_append, Pass.momentsOf_singleton, List.reverse_append]
    refine ⟨(maintains _ _ _ holds.1).result valid, fun earlier moment later split => ?_⟩
    rcases split_cases split with ⟨rest, rfl, inside⟩ | ⟨rest, before⟩
    · rw [List.reverse_append]
      exact (maintains _ _ _ holds.1).moment_good valid inside
    · exact holds.2 earlier moment rest before
  rcases split_cases split with ⟨rest, rfl, inside⟩ | ⟨rest, before⟩
  · rw [List.reverse_append]
    exact (maintains _ _ _ passed.1).moment_good run.current inside
  · exact passed.2 earlier moment rest before

/-- What each pass keeps to holds of everything that happened. -/
theorem trace_good (inv : Past interface World → State → World → Prop)
    {good : Moment interface World → Prop}
    (maintains : Maintains system body inv fun _ moment => good moment)
    (initially : inv [] start initial) (run : LoopRun system body start initial) :
    ∀ moment ∈ run.trace, good moment := by
  have each {past state world} (holds : inv past state world) {moments final outcome}
      (execution : Executes system (body state).run world moments final outcome) :
      ∀ moment ∈ moments, good moment := by
    intro moment member
    rcases List.append_of_mem member with ⟨earlier, later, split⟩
    exact (maintains past state world holds).moment_good execution split
  have passed : inv run.past run.state run.world ∧
      ∀ moment ∈ Pass.momentsOf run.passes, good moment := by
    refine Passes.invariant
      (fun passes state world => inv (Pass.momentsOf passes).reverse state world ∧
        ∀ moment ∈ Pass.momentsOf passes, good moment)
      ⟨initially, by simp⟩ ?_ run.completed
    intro passes pass holds valid
    rw [Pass.momentsOf_append, Pass.momentsOf_singleton, List.reverse_append]
    constructor
    · exact (maintains _ _ _ holds.1).result valid
    · intro moment member
      rcases List.mem_append.mp member with member | member
      · exact holds.2 moment member
      · exact each holds.1 valid moment member
  intro moment member
  rcases List.mem_append.mp member with member | member
  · exact passed.2 moment member
  · exact each passed.1 run.current moment member

/-- The same run, of which only moments that satisfy `keep` are known. -/
def restrict {keep : Moment interface World → Prop}
    (run : LoopRun system body start initial)
    (kept : ∀ moment ∈ run.trace, keep moment) :
    LoopRun (system.restrict keep) body start initial where
  passes := run.passes
  state := run.state
  world := run.world
  completed := run.completed.restrict fun moment member =>
    kept moment (List.mem_append_left _ member)
  moments := run.moments
  final := run.final
  outcome := run.outcome
  current := run.current.restrict fun moment member =>
    kept moment (List.mem_append_right _ member)

/-! ## Building runs -/

def begin : LoopRun system body start initial where
  passes := []
  state := start
  world := initial
  completed := .none
  moments := []
  final := initial
  outcome := none
  current := .killed _ _

def resume (run : LoopRun system body start initial) {oracle : Oracle interface World}
    (permitted : Permitted system oracle) (fuel : Nat) :
    LoopRun system body start initial :=
  let pass := simulate oracle fuel (body run.state).run [] run.world
  { run with
    moments := pass.1, final := pass.2.1, outcome := pass.2.2
    current := simulate_executes permitted _ _ _ _ }

/-- What every reply of the oracle satisfies, everything that happened does, if the
earlier passes do. -/
theorem resume_each {run : LoopRun system body start initial}
    {oracle : Oracle interface World} {keep : Moment interface World → Prop}
    (permitted : Permitted system oracle) (fuel : Nat)
    (passed : ∀ moment ∈ Pass.momentsOf run.passes, keep moment)
    (each : ∀ past world operation, keep ⟨world, operation,
      (oracle past world operation).1, (oracle past world operation).2⟩) :
    ∀ moment ∈ (run.resume permitted fuel).trace, keep moment := by
  intro moment member
  rcases List.mem_append.mp member with member | member
  · exact passed moment member
  · exact simulate_each each _ _ _ _ moment member

theorem current_valid {run : LoopRun system body start initial} {next : State}
    (ended : run.outcome = some (.ok next)) : Pass.Valid system body
      ⟨run.state, run.world, run.moments, next, run.final⟩ := by
  have current := run.current
  rw [ended] at current
  exact current

def complete (run : LoopRun system body start initial) :
    LoopRun system body start initial :=
  match ended : run.outcome with
  | some (.ok next) =>
      { passes := run.passes ++ [⟨run.state, run.world, run.moments, next, run.final⟩]
        state := next
        world := run.final
        completed := .next run.completed
          ⟨run.state, run.world, run.moments, next, run.final⟩ rfl rfl
          (current_valid ended)
        moments := []
        final := run.final
        outcome := none
        current := .killed _ _ }
  | _ => run

theorem complete_of_ended {run : LoopRun system body start initial} {next : State}
    (ended : run.outcome = some (.ok next)) :
    run.complete.passes =
        run.passes ++ [⟨run.state, run.world, run.moments, next, run.final⟩] ∧
      run.complete.state = next ∧ run.complete.world = run.final := by
  unfold complete
  split
  · next value same =>
      rw [ended] at same
      cases same
      exact ⟨rfl, rfl, rfl⟩
  · next other => exact absurd ended (other next)

/-- Completing a pass adds nothing to what happened. -/
theorem complete_trace (run : LoopRun system body start initial) :
    run.complete.trace = run.trace := by
  unfold complete
  split
  · simp [trace]
  · rfl

end LoopRun

end Homelab.Effects
