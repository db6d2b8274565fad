import Homelab.Effects.Interleaving
import Homelab.Effects.Oblivious
import Homelab.Effects.Within
import Mathlib.Algebra.BigOperators.Group.List.Basic
import Mathlib.Algebra.GroupWithZero.Nat
import Mathlib.Data.List.Induction
import Mathlib.Data.List.Nodup

/-! # Interleavings seen from above

Programs that run next to each other below refine programs that run next to each other above:
each turn below is nothing above, or one operation of the same process.
-/

namespace Homelab.Effects

section

variable {low high : Interface} {Low High Process Claim α : Type} [DecidableEq Process]

/-- From `program` to `program'` nothing happens above, or one operation. -/
inductive Lifts (upper : System high High) (before after : High) :
    Program high α → Program high α → Prop
  | silent {program} (same : after = before) : Lifts upper before after program program
  | takes {operation : high.Operation} {next : high.Answer operation → Program high α}
      {answer : high.Answer operation} (step : upper.Step before operation answer after) :
      Lifts upper before after (.call operation next) (next answer)

/-- What is known of the processes: each holds a claim, its programs above and below are in a
stage that the claim goes with, and the claims are apart. -/
structure Abreast (stage : Claim → Program high α → Program low α → Low → Prop)
    (apart : Claim → Claim → Prop) (claims : Process → Claim)
    (above : Process → Program high α) (below : Process → Program low α) (world : Low) : Prop where
  stages : ∀ process, stage (claims process) (above process) (below process) world
  apart : ∀ process other, process ≠ other → apart (claims process) (claims other)

/-- One turn: it lifts, the process is in a stage again, and whoever has a claim apart from the
old one stays in its stage and is apart from the new one. -/
structure Advances (upper : System high High) (view : Low → High)
    (stage : Claim → Program high α → Program low α → Low → Prop) (apart : Claim → Claim → Prop)
    (before after : Low) (claim claim' : Claim) (program program' : Program high α)
    (rest : Program low α) : Prop where
  lifts : Lifts upper (view before) (view after) program program'
  own : stage claim' program' rest after
  others : ∀ held program rest, apart claim held → apart held claim →
    stage held program rest before →
    stage held program rest after ∧ apart claim' held ∧ apart held claim'

variable {lower : System low Low} {upper : System high High} {view : Low → High}
  {stage : Claim → Program high α → Program low α → Low → Prop} {apart : Claim → Claim → Prop}
  {claims : Process → Claim} {above : Process → Program high α}
  {programs rest : Process → Program low α}

/-- The process is where its turn has brought it, and the others are where they were. -/
theorem Abreast.advance {before after : Low} {process : Process} {claim' : Claim}
    {program' : Program high α} {left : Program low α}
    (abreast : Abreast stage apart claims above rest before)
    (advances : Advances upper view stage apart before after (claims process) claim'
      (above process) program' left) :
    Abreast stage apart (Function.update claims process claim')
      (Function.update above process program') (Function.update rest process left) after := by
  have others {other} (different : other ≠ process) :=
    advances.others _ _ _ (abreast.apart _ _ (Ne.symm different)) (abreast.apart _ _ different)
      (abreast.stages other)
  refine ⟨fun other => ?_, fun one other different => ?_⟩
  · by_cases same : other = process
    · subst same
      simp only [Function.update_self]
      exact advances.own
    · simp only [Function.update_of_ne same]
      exact (others same).1
  · by_cases first : one = process
    · subst first
      rw [Function.update_self, Function.update_of_ne (Ne.symm different)]
      exact (others (Ne.symm different)).2.1
    · rw [Function.update_of_ne first]
      by_cases second : other = process
      · subst second
        rw [Function.update_self]
        exact (others first).2.2
      · rw [Function.update_of_ne second]
        exact abreast.apart one other different

/-- If every turn advances, what runs below is what can run above. -/
theorem Interleaves.refines {start world : Low} {turns : List (Turn low Low Process)}
    (interleaves : Interleaves lower programs start turns rest world)
    (initially : Abreast stage apart claims above programs start)
    (advances : ∀ before claim program operation next answer after,
      stage claim program (.call operation next) before →
      lower.Step before operation answer after →
      ∃ claim' program', Advances upper view stage apart before after claim claim' program
        program' (next answer)) :
    ∃ claims turns' rest', Interleaves upper above (view start) turns' rest' (view world) ∧
      Abreast stage apart claims rest' rest world ∧
      ∀ turn ∈ turns', ∃ cause ∈ turns, cause.process = turn.process := by
  induction interleaves with
  | start =>
      exact ⟨claims, [], above, .start, initially, fun _ member => absurd member List.not_mem_nil⟩
  | @next turns rest before earlier process operation next waits answer after step induction =>
      rcases induction with ⟨claims, turns', rest', lifted, abreast, caused⟩
      have here := abreast.stages process
      rw [waits] at here
      rcases advances _ _ _ _ _ _ _ here step with ⟨claim', program', advanced⟩
      have moved := abreast.advance advanced
      have earlierCaused : ∀ turn ∈ turns', ∃ cause ∈ turns ++
          [⟨process, before, operation, answer, after⟩], cause.process = turn.process := by
        intro turn member
        rcases caused turn member with ⟨cause, there, same⟩
        exact ⟨cause, List.mem_append_left _ there, same⟩
      have lifts := advanced.lifts
      generalize left : rest' process = program at lifts
      cases lifts with
      | silent same =>
          rw [← left, Function.update_eq_self] at moved
          rw [← same] at lifted
          exact ⟨_, turns', rest', lifted, moved, earlierCaused⟩
      | takes taken =>
          refine ⟨_, _, _, lifted.next process left taken, moved, fun turn member => ?_⟩
          rcases List.mem_append.mp member with earlier | last
          · exact earlierCaused turn earlier
          · rw [List.mem_singleton.mp last]
            exact ⟨_, List.mem_append_right _ List.mem_cons_self, rfl⟩

end

/-! ## The turns of one process -/

section

variable {interface : Interface} {World Process α : Type} [DecidableEq Process]
  {system : System interface World}

def momentsOf (process : Process) (turns : List (Turn interface World Process)) :
    List (Moment interface World) :=
  (turns.filter fun turn => turn.process = process).map Turn.moment

/-- `Follows program moments rest`: answered so, the program is left with `rest`. -/
inductive Follows (program : Program interface α) :
    List (Moment interface World) → Program interface α → Prop
  | start : Follows program [] program
  | next {moments operation next} (earlier : Follows program moments (.call operation next))
      (before after : World) (answer : interface.Answer operation) :
      Follows program (moments ++ [⟨before, operation, answer, after⟩]) (next answer)

theorem Follows.nothing {program rest : Program interface α}
    (follows : Follows program ([] : List (Moment interface World)) rest) : rest = program := by
  generalize none_ : ([] : List (Moment interface World)) = moments at follows
  cases follows with
  | start => rfl
  | next => exact absurd none_.symm (List.append_ne_nil_of_right_ne_nil _ (List.cons_ne_nil _ _))

variable {programs rest : Process → Program interface α} {start world : World}
  {turns : List (Turn interface World Process)} {turn : Turn interface World Process}
  {process : Process}

theorem momentsOf_snoc : momentsOf process (turns ++ [turn]) =
    momentsOf process turns ++ if turn.process = process then [turn.moment] else [] := by
  rw [momentsOf, List.filter_append, List.map_append, momentsOf]
  congr 1
  by_cases same : turn.process = process
  · simp [same]
  · simp [same]

/-- Each process follows its own program. -/
theorem Interleaves.follows (interleaves : Interleaves system programs start turns rest world)
    (process : Process) : Follows (programs process) (momentsOf process turns) (rest process) := by
  induction interleaves with
  | start => exact .start
  | @next turns rest before earlier actor operation next waits answer after step induction =>
      rw [momentsOf_snoc]
      by_cases same : actor = process
      · subst same
        rw [waits] at induction
        rw [if_pos rfl, Function.update_self]
        exact induction.next _ _ _
      · rw [if_neg same, List.append_nil, Function.update_of_ne (Ne.symm same)]
        exact induction

/-- Whoever goes on from where others are goes on from where they began. -/
theorem Interleaves.trans {middle : Process → Program interface α} {between : World}
    {more : List (Turn interface World Process)}
    (first : Interleaves system programs start turns middle between)
    (second : Interleaves system middle between more rest world) :
    Interleaves system programs start (turns ++ more) rest world := by
  induction second with
  | start =>
      rw [List.append_nil]
      exact first
  | next earlier process waits step induction =>
      rw [← List.append_assoc]
      exact induction.next process waits step

/-- A program that keeps to some operations asks for no others. -/
theorem Program.Within.follows {allowed : interface.Operation → Prop} {ends : α → Prop}
    {program rest : Program interface α} {moments : List (Moment interface World)}
    (within : program.Within allowed ends) (follows : Follows program moments rest) :
    (∀ operation ∈ asked moments, allowed operation) ∧ rest.Within allowed ends := by
  induction follows with
  | start => exact ⟨fun _ absent => absurd absent List.not_mem_nil, within⟩
  | next earlier before after answer induction =>
      rcases induction with ⟨own, allows, later⟩
      refine ⟨fun operation member => ?_, later answer⟩
      rw [asked, List.map_append] at member
      rcases List.mem_append.mp member with inside | last
      · exact own operation inside
      · rw [List.mem_singleton.mp last]
        exact allows

/-- A program that learns nothing asks for its operations in order, and for all of them before
it is done. -/
theorem Program.Oblivious.follows {program rest : Program interface α} {result : α}
    {operations : List interface.Operation} {moments : List (Moment interface World)}
    (oblivious : program.Oblivious result operations) (follows : Follows program moments rest) :
    ∃ more, operations = asked moments ++ more ∧ rest.Oblivious result more := by
  induction follows with
  | start => exact ⟨operations, rfl, oblivious⟩
  | next earlier before after answer induction =>
      rcases induction with ⟨more, split, others, first, later⟩
      subst first
      refine ⟨others, ?_, later answer⟩
      rw [split, asked, asked, List.map_append, List.append_assoc]
      rfl

/-- What all the processes did, counted for each of them. -/
theorem count_momentsOf (counts : Moment interface World → Bool) {threads : List Process}
    (distinct : threads.Nodup) (all : ∀ turn ∈ turns, turn.process ∈ threads) :
    (turns.map Turn.moment).countP counts =
      (threads.map fun thread => (momentsOf thread turns).countP counts).sum := by
  induction turns using List.reverseRecOn with
  | nil => simp [momentsOf]
  | append_singleton turns turn induction =>
      have before := induction fun other member => all other (List.mem_append_left _ member)
      have member := all turn (List.mem_append_right _ List.mem_cons_self)
      -- The last turn counts for its process and for no other.
      have split : ∀ thread, (momentsOf thread (turns ++ [turn])).countP counts =
          (momentsOf thread turns).countP counts +
            if thread = turn.process then [turn.moment].countP counts else 0 := by
        intro thread
        rw [momentsOf_snoc, List.countP_append]
        by_cases same : turn.process = thread
        · rw [if_pos same, if_pos same.symm]
        · rw [if_neg same, if_neg (Ne.symm same), List.countP_nil]
      rw [List.map_append, List.countP_append, before,
        List.map_congr_left fun thread _ => split thread, List.sum_map_add,
        List.sum_map_eq_nsmul_single turn.process _ fun other different _ => if_neg different,
        List.count_eq_one_of_mem distinct member, one_nsmul, if_pos rfl]
      rfl

end

end Homelab.Effects
