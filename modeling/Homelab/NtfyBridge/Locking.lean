import Homelab.NtfyBridge.Threads

/-! # The lock of the counters

`counter += 1` reads a global name and then writes it, so that an increment could overwrite
another one. Under `_COUNTER_LOCK` none does, and the threads might as well take turns with
whole statements.
-/

namespace Homelab.NtfyBridge

open Effects Text

variable {Process : Type} [DecidableEq Process]

inductive Instruction
  | acquire
  | release
  | load (counter : Counter)
  | store (counter : Counter) (value : Nat)
  | note (note : Note)

def Instruction.Answer : Instruction → Type
  | .load _ => Nat
  | _ => Unit

abbrev instructions : Interface := ⟨Instruction, Instruction.Answer⟩

/-- What the threads share, and whether one of them has the lock. -/
structure Shared where
  state : State
  locked : Bool

def machine : System instructions Shared where
  Step shared instruction answer after :=
    match instruction, answer with
    | .acquire, _ => shared.locked = false ∧ after = ⟨shared.state, true⟩
    | .release, _ => shared.locked = true ∧ after = ⟨shared.state, false⟩
    | .load counter, (answer : Nat) => answer = shared.state.value counter ∧ after = shared
    | .store counter value, _ => after = ⟨shared.state.put value counter, shared.locked⟩
    | .note own, _ => after = ⟨own.on shared.state, shared.locked⟩

/-- What is left of `with _COUNTER_LOCK: counter += 1` once the new value is stored. -/
def leave : Program instructions Unit := .call .release .done

def store (counter : Counter) (value : Nat) : Program instructions Unit :=
  .call (.store counter value) fun _ => leave

def bump (counter : Counter) : Program instructions Unit :=
  .call (.load counter) fun (value : Nat) => store counter (value + 1)

/-- `with _COUNTER_LOCK: counter += 1`. -/
def withLock (counter : Counter) : Program instructions Unit := .call .acquire fun _ => bump counter

def compile : ∀ statement : Statement, Program instructions statement.Answer
  | .count counter => withLock counter
  | .read counter => .call (.load counter) .done
  | .note own => .call (.note own) .done

def Call.program (call : Call) : Program instructions (List Reply) := call.thread.interpret compile

/-! ## Where a thread is -/

/-- The statements a thread has left, and the instructions. Between `acquire` and `release` it
has the lock, and the value that it loaded is still that of the counter. -/
inductive Stage {α : Type} : Bool → Thread α → Program instructions α → Shared → Prop
  | free {thread left shared} (instructs : left = thread.interpret compile) :
      Stage false thread left shared
  | entered {counter next left shared} (locked : shared.locked = true)
      (instructs : left = bump counter >>= fun answer => (next answer).interpret compile) :
      Stage true (.call (.count counter) next) left shared
  | loaded {counter next left shared} (locked : shared.locked = true)
      (instructs : left = store counter (shared.state.value counter + 1) >>= fun answer =>
        (next answer).interpret compile) :
      Stage true (.call (.count counter) next) left shared
  | stored {thread left shared} (locked : shared.locked = true)
      (instructs : left = leave >>= fun _ => thread.interpret compile) :
      Stage true thread left shared

def Apart (one other : Bool) : Prop := one = false ∨ other = false

section Stages

variable {α : Type} {holds : Bool} {thread : Thread α} {left : Program instructions α}
  {shared after : Shared}

theorem Stage.locked (stage : Stage true thread left shared) : shared.locked = true := by
  cases stage with
  | entered locked _ => exact locked
  | loaded locked _ => exact locked
  | stored locked _ => exact locked

/-- A thread notices nothing while it is free, and what keeps the lock and the counters. -/
theorem Stage.frame (stage : Stage holds thread left shared)
    (same : holds = true → after.locked = true ∧
      ∀ counter, after.state.value counter = shared.state.value counter) :
    Stage holds thread left after := by
  cases stage with
  | free instructs => exact .free instructs
  | entered _ instructs => exact .entered (same rfl).1 instructs
  | loaded _ instructs =>
      refine .loaded (same rfl).1 ?_
      rw [(same rfl).2]
      exact instructs
  | stored _ instructs => exact .stored (same rfl).1 instructs

abbrev Moved (before after : Shared) (holds holds' : Bool) (thread thread' : Thread α)
    (left : Program instructions α) : Prop :=
  Advances atomic Shared.state Stage Apart before after holds holds' thread thread' left

/-- The turn of a free thread that keeps the lock as it is, and the counters. -/
theorem moved_free {before : Shared} {thread' : Thread α}
    (lifts : Lifts atomic before.state after.state thread thread')
    (instructs : left = thread'.interpret compile) (locked : after.locked = before.locked)
    (values : ∀ counter, after.state.value counter = before.state.value counter) :
    Moved before after false false thread thread' left where
  lifts := lifts
  own := .free instructs
  others held _ _ apart apart' stage := by
    refine ⟨stage.frame ?_, apart, apart'⟩
    rintro rfl
    exact ⟨locked.trans stage.locked, values⟩

/-- The turn of the thread that has the lock. -/
theorem moved_holder {before : Shared} {thread' : Thread α} {holds' : Bool}
    (lifts : Lifts atomic before.state after.state thread thread')
    (own : Stage holds' thread' left after) :
    Moved before after true holds' thread thread' left where
  lifts := lifts
  own := own
  others held _ _ apart apart' stage := by
    have free : held = false := apart.resolve_left (by decide)
    subst free
    exact ⟨stage.frame fun impossible => (by cases impossible), .inr rfl, .inl rfl⟩

variable {instruction : Instruction} {next : instruction.Answer → Program instructions α}
  {answer : instruction.Answer}

theorem advance_free (instructs : .call instruction next = thread.interpret compile)
    (step : machine.Step shared instruction answer after) :
    ∃ holds' thread', Moved shared after false holds' thread thread' (next answer) := by
  cases thread with
  | done result => cases instructs
  | call statement later =>
      cases statement with
      | count counter =>
          -- The lock is taken: nobody else can have had it.
          cases instructs
          rcases step with ⟨unlocked, rfl⟩
          refine ⟨true, _, .silent rfl, .entered rfl rfl, fun held _ _ _ _ stage => ?_⟩
          cases held with
          | false => exact ⟨stage.frame fun impossible => (by cases impossible), .inr rfl, .inl rfl⟩
          | true => exact absurd (unlocked.symm.trans stage.locked) (by decide)
      | read counter =>
          cases instructs
          rcases step with ⟨rfl, rfl⟩
          exact ⟨false, _, moved_free (.takes ⟨rfl, rfl⟩) rfl rfl fun _ => rfl⟩
      | note own =>
          cases instructs
          have written : after = ⟨own.on shared.state, shared.locked⟩ := step
          subst written
          exact ⟨false, _, moved_free (.takes rfl) rfl rfl (value_note shared.state own)⟩

/-- Every instruction is nothing among the statements, or one of them. -/
theorem advance (stage : Stage holds thread (.call instruction next) shared)
    (step : machine.Step shared instruction answer after) :
    ∃ holds' thread', Moved shared after holds holds' thread thread' (next answer) := by
  cases stage with
  | free instructs => exact advance_free instructs step
  | @entered counter later _ _ locked instructs =>
      cases instructs
      rcases step with ⟨rfl, rfl⟩
      exact ⟨true, _, moved_holder (.silent rfl) (.loaded locked rfl)⟩
  | @loaded counter later _ _ locked instructs =>
      cases instructs
      have written : after = ⟨shared.state.put (shared.state.value counter + 1) counter,
        shared.locked⟩ := step
      subst written
      exact ⟨true, later (), moved_holder (.takes rfl) (.stored locked rfl)⟩
  | stored locked instructs =>
      cases instructs
      rcases step with ⟨_, rfl⟩
      exact ⟨false, _, moved_holder (.silent rfl) (.free rfl)⟩

theorem interpret_done {result : α} (ended : .done result = thread.interpret compile) :
    thread = .done result := by
  cases thread with
  | done other =>
      cases ended
      rfl
  | call statement later => cases statement <;> cases ended

/-- A thread that is through with its instructions is through with its statements. -/
theorem Stage.done {result : α} (stage : Stage holds thread (.done result) shared) :
    thread = .done result := by
  cases stage with
  | free instructs => exact interpret_done instructs
  | entered _ instructs => cases instructs
  | loaded _ instructs => cases instructs
  | stored _ instructs => cases instructs

end Stages

end Homelab.NtfyBridge
