import Homelab.GithubRunner.Host
import Mathlib.Data.Finset.Card
import Mathlib.Data.Finset.Dedup

/-! # The jobs that are counted

A container is counted when a listing shows that it exited, and removed after that. A
container that stays is shown again, and one that cannot be inspected is counted with
exit code 0.
-/

namespace Homelab.GithubRunner

open Effects Python Text

/-- The containers that a listing of exited containers shows. -/
def exitedIds : Moment interface World → List String
  | ⟨_, .docker .listExited, .ok out, _⟩ => (rows out.stdout).map Row.id
  | _ => []

/-- The distinct job containers that were seen exited. -/
def seen (past : Past interface World) : Finset String :=
  (past.flatMap exitedIds).toFinset

def Prints (code : Int) (stdout : String) : Prop :=
  strip stdout ≠ "" ∧ intOfText (strip stdout) = .ok code

/-- The exit code of the container was read, and it is this one. -/
def Reads (id : String) (code : Int) (moment : Moment interface World) : Prop :=
  ∃ before out after, moment = ⟨before, .docker (.inspectExitCode id), .ok out, after⟩ ∧
    out.returncode = 0 ∧ Prints code out.stdout

/-- Each container that was seen exited is counted once, with the exit code that was
read of it. -/
structure Accounted (codes : String → Int) (past : Past interface World)
    (counters : Counters) : Prop where
  total : counters.jobsTotal = (seen past).card
  failed : counters.jobsFailedTotal = ((seen past).filter fun id => codes id ≠ 0).card
  read : ∀ id ∈ seen past, ∃ moment ∈ past, Reads id (codes id) moment

/-- How docker behaves: it shows a container once, and only while it has it, and an
inspection that works prints the exit code. -/
structure DockerTells (codes : String → Int) (moment : Moment interface World) : Prop where
  once : (exitedIds moment).Nodup
  present : ∀ id ∈ exitedIds moment, id ∉ moment.before.removed
  prints : ∀ id before out after,
    moment = ⟨before, .docker (.inspectExitCode id), .ok out, after⟩ →
    out.returncode = 0 → Prints (codes id) out.stdout

/-- An inspection works, and a container that was to be removed is gone. -/
structure Clears (moment : Moment interface World) : Prop where
  inspected : ∀ id before answer after,
    moment = ⟨before, .docker (.inspectExitCode id), answer, after⟩ →
    ∃ out, answer = .ok out ∧ out.returncode = 0
  gone : ∀ id before answer after,
    moment = ⟨before, .docker (.remove id), answer, after⟩ →
    (∃ out, answer = .ok out) ∧ id ∈ after.removed

/-- These containers were shown, and are still to be counted and removed. -/
structure Owed (codes : String → Int) (past : Past interface World) (world : World)
    (ids : List String) : Prop where
  nodup : ids.Nodup
  shown : ∀ id ∈ ids, id ∈ seen past
  settled : ∀ id ∈ seen past, id ∉ ids →
    id ∈ world.removed ∧ ∃ moment ∈ past, Reads id (codes id) moment
  total : world.memory.counters.jobsTotal + ids.length = (seen past).card
  failed : world.memory.counters.jobsFailedTotal + ids.countP (fun id => codes id ≠ 0) =
    ((seen past).filter fun id => codes id ≠ 0).card

section

variable {codes : String → Int} {cfg : Config} {past : Past interface World}
  {world after : World} {ids : List String} {α : Type}

theorem mem_seen_cons {id : String} {moment : Moment interface World} :
    id ∈ seen (moment :: past) ↔ id ∈ exitedIds moment ∨ id ∈ seen past := by
  simp [seen]

theorem seen_cons_of_none {moment : Moment interface World}
    (none : exitedIds moment = []) : seen (moment :: past) = seen past := by
  rw [seen, List.flatMap_cons, none, List.nil_append, seen]

theorem Owed.accounted (owed : Owed codes past world []) :
    Accounted codes past world.memory.counters where
  total := owed.total
  failed := by simpa using owed.failed
  read id member := (owed.settled id member (by simp)).2

theorem exitedIds_eq_nil {moment : Moment interface World}
    (other : moment.operation ≠ .docker .listExited) : exitedIds moment = [] := by
  rcases moment with ⟨before, operation, answer, after⟩
  cases operation with
  | docker call =>
      cases call with
      | listExited => exact absurd rfl other
      | _ => rfl
  | _ => rfl

/-- Nothing but a finished job changes what is counted of the jobs. -/
theorem jobs_unchanged {operation : Operation} (memory : Memory)
    (other : ∀ code, operation ≠ .count (.jobDone code)) :
    (memory.after operation).counters.jobsTotal = memory.counters.jobsTotal ∧
      (memory.after operation).counters.jobsFailedTotal =
        memory.counters.jobsFailedTotal := by
  cases operation with
  | count tally =>
      cases tally with
      | jobDone code => exact absurd rfl (other code)
      | _ => exact ⟨rfl, rfl⟩
  | _ => exact ⟨rfl, rfl⟩

theorem removed_subset {operation : Operation} {answer : Answer operation}
    (step : system.Step world operation answer after) : world.removed ⊆ after.removed :=
  Finset.union_subset_left (HostStep.removing step)

/-- An operation that neither shows nor counts a container changes nothing. -/
theorem Owed.next (owed : Owed codes past world ids) {operation : Operation}
    {answer : Answer operation} (notShown : operation ≠ .docker .listExited)
    (notDone : ∀ code, operation ≠ .count (.jobDone code))
    (step : system.Step world operation answer after) :
    Owed codes (⟨world, operation, answer, after⟩ :: past) after ids := by
  have same : seen (⟨world, operation, answer, after⟩ :: past) = seen past :=
    seen_cons_of_none (exitedIds_eq_nil notShown)
  have ⟨total, failed⟩ := jobs_unchanged world.memory notDone
  rw [← HostStep.remembering step] at total failed
  constructor
  · exact owed.nodup
  · exact same.symm ▸ owed.shown
  · intro id member counted
    have ⟨removed, moment, found, reads⟩ := owed.settled id (same ▸ member) counted
    exact ⟨removed_subset step removed, moment, List.mem_cons_of_mem _ found, reads⟩
  · rw [same, total]
    exact owed.total
  · rw [same, failed]
    exact owed.failed

theorem card_filter_toFinset {ids : List String} (nodup : ids.Nodup) :
    (ids.toFinset.filter fun id => codes id ≠ 0).card =
      ids.countP fun id => codes id ≠ 0 := by
  rw [List.countP_eq_length_filter, ← List.toFinset_card_of_nodup (nodup.filter _)]
  congr 1
  ext id
  simp

/-! ## The parts of a tick -/

/-- The rules of the host, if docker clears what it is told to. -/
abbrev clearing (codes : String → Int) : System interface World :=
  system.restrict fun moment => DockerTells codes moment ∧ Clears moment

abbrev Settles (codes : String → Int)
    (post : Past interface World → World → α → Prop) (attempt : Py α)
    (past : Past interface World) (world : World) : Prop :=
  Attempt.Guarded (clearing codes) (fun _ _ => True) post
    (fun past world _ => Owed codes past world []) attempt past world

theorem owed_keeps : Keeps (clearing codes) (Of [.plain, .registers, .starts])
    (fun _ _ => True) (fun past world => Owed codes past world []) := by
  intro past world operation answer after quiet step owed
  refine ⟨trivial, owed.next ?_ ?_ step.1⟩
  · intro same
    rw [same] at quiet
    exact absurd quiet (by decide)
  · intro code same
    rw [same] at quiet
    simp [Of, Operation.kind] at quiet

theorem settles_of_within {attempt : Py α}
    (within : attempt.Within (Of [.plain, .registers, .starts]))
    (owed : Owed codes past world []) :
    Settles codes (fun past world _ => Owed codes past world []) attempt past world :=
  within.guarded owed_keeps owed

/-- A listing owes what it shows. -/
theorem Owed.listing (owed : Owed codes past world []) {out : Completed}
    (step : (clearing codes).Step world (.docker .listExited) (.ok out) after) :
    Owed codes (⟨world, .docker .listExited, .ok out, after⟩ :: past) after
      ((rows out.stdout).map Row.id) := by
  have fresh : Disjoint ((rows out.stdout).map Row.id).toFinset (seen past) := by
    rw [Finset.disjoint_left]
    intro id member old
    exact step.2.1.present id (List.mem_toFinset.mp member)
      (owed.settled id old (by simp)).1
  have nodup : ((rows out.stdout).map Row.id).Nodup := step.2.1.once
  have grown : seen (⟨world, .docker .listExited, .ok out, after⟩ :: past) =
      ((rows out.stdout).map Row.id).toFinset ∪ seen past := by
    rw [seen, List.flatMap_cons, List.toFinset_append]
    rfl
  have remembering : after.memory = world.memory := HostStep.remembering step.1
  constructor
  · exact nodup
  · intro id member
    exact mem_seen_cons.mpr (.inl member)
  · intro id member counted
    rcases mem_seen_cons.mp member with now | old
    · exact absurd now counted
    · have ⟨removed, moment, found, reads⟩ := owed.settled id old (by simp)
      exact ⟨removed_subset step.1 removed, moment, List.mem_cons_of_mem _ found, reads⟩
  · have total := owed.total
    rw [grown, Finset.card_union_of_disjoint fresh, List.toFinset_card_of_nodup nodup,
      remembering, ← total]
    simp only [List.length_nil]
    omega
  · have failed := owed.failed
    have kept := Finset.disjoint_filter_filter (p := fun id => codes id ≠ 0)
      (q := fun id => codes id ≠ 0) fresh
    rw [grown, Finset.filter_union, Finset.card_union_of_disjoint kept,
      remembering, ← failed, card_filter_toFinset nodup]
    simp only [List.countP_nil]
    omega

/-- The exit codes that were read of these containers. -/
def ReadAll (codes : String → Int) (past : Past interface World)
    (exited : List Exited) : Prop :=
  ∀ container ∈ exited, container.exitCode = codes container.row.id ∧
    ∃ moment ∈ past, Reads container.row.id (codes container.row.id) moment

theorem ReadAll.grow {exited : List Exited} {moment : Moment interface World}
    (read : ReadAll codes past exited) : ReadAll codes (moment :: past) exited := by
  intro container member
  have ⟨same, found, foundIn, reads⟩ := read container member
  exact ⟨same, found, List.mem_cons_of_mem _ foundIn, reads⟩

theorem exitCodeOf_of_prints {out : Completed} {code : Int} (worked : out.returncode = 0)
    (prints : Prints code out.stdout) : exitCodeOf out = .ok code := by
  simp only [exitCodeOf, if_pos worked, if_neg prints.1]
  exact prints.2

theorem inspectRows_settles (listed : List Row) (done : List Exited)
    (owed : Owed codes past world ids) (read : ReadAll codes past done) :
    Settles codes
      (fun past world exited => Owed codes past world ids ∧
        exited.map Exited.row = listed ∧ ReadAll codes past (done ++ exited))
      (inspectRows listed) past world := by
  induction listed generalizing past world done with
  | nil => exact ⟨owed, rfl, by simpa using read⟩
  | cons row rest induction =>
      have inspected : Settles codes
          (fun past world out => Owed codes past world ids ∧
            exitCodeOf out = .ok (codes row.id) ∧
            ReadAll codes past (done ++ [⟨row, codes row.id⟩]))
          (docker (.inspectExitCode row.id)) past world := by
        apply docker_iff.mpr
        intro answer after step
        rcases step.2.2.inspected row.id world answer after rfl with ⟨out, rfl, worked⟩
        have prints := step.2.1.prints row.id world out after rfl worked
        refine ⟨trivial, owed.next (by simp) (by simp) step.1,
          exitCodeOf_of_prints worked prints, ?_⟩
        intro container member
        rcases List.mem_append.mp member with member | member
        · exact read.grow container member
        · rw [List.mem_singleton.mp member]
          exact ⟨rfl, _, List.mem_cons_self, world, out, after, rfl, worked, prints⟩
      apply Attempt.bind inspected
      intro past₁ world₁ out ⟨owed₁, code, read₁⟩
      rw [code]
      apply Attempt.bind (builtin_iff.mpr (show Attempt.Ends
        (fun past world exitCode => Owed codes past world ids ∧ exitCode = codes row.id ∧
          ReadAll codes past (done ++ [⟨row, codes row.id⟩])) _ past₁ world₁
          (.ok (codes row.id)) from ⟨owed₁, rfl, read₁⟩))
      rintro past₂ world₂ exitCode ⟨owed₂, rfl, read₂⟩
      apply Attempt.bind (induction _ owed₂ read₂)
      intro past₃ world₃ others ⟨owed₃, same, read₃⟩
      exact ⟨owed₃, congrArg (row :: ·) same, by simpa using read₃⟩

/-- A container is counted and removed. -/
theorem Owed.settle {id : String} {world₁ : World}
    (owed : Owed codes past world (id :: ids))
    (read : ∃ moment ∈ past, Reads id (codes id) moment)
    {counted : Unit} (step₁ : system.Step world (.count (.jobDone (codes id))) counted world₁)
    {answer : Except Exception Completed}
    (step₂ : system.Step world₁ (.docker (.remove id)) answer after)
    (gone : id ∈ after.removed) :
    Owed codes (⟨world₁, .docker (.remove id), answer, after⟩ ::
      ⟨world, .count (.jobDone (codes id)), counted, world₁⟩ :: past) after ids := by
  have counters : after.memory.counters =
      world.memory.counters.add (.jobDone (codes id)) := by
    have kept : after.memory = world₁.memory := HostStep.remembering step₂
    rw [kept, HostStep.remembering step₁]
    rfl
  have same : seen (⟨world₁, .docker (.remove id), answer, after⟩ ::
      ⟨world, .count (.jobDone (codes id)), counted, world₁⟩ :: past) = seen past := by
    rw [seen_cons_of_none (exitedIds_eq_nil (by simp)),
      seen_cons_of_none (exitedIds_eq_nil (by simp))]
  have ⟨fresh, nodup⟩ := List.nodup_cons.mp owed.nodup
  have total := owed.total
  have failed := owed.failed
  constructor
  · exact nodup
  · exact fun other member => same.symm ▸ owed.shown other (by simp [member])
  · intro other member cleared
    by_cases this : other = id
    · have ⟨moment, found, reads⟩ := read
      exact ⟨this ▸ gone, moment, by simp [found], this ▸ reads⟩
    · have ⟨removed, moment, found, reads⟩ :=
        owed.settled other (same ▸ member) (by simp [this, cleared])
      exact ⟨removed_subset step₂ (removed_subset step₁ removed), moment, by simp [found],
        reads⟩
  · rw [same, counters, ← total]
    simp only [Counters.add, List.length_cons]
    omega
  · rw [same, counters, ← failed, List.countP_cons]
    simp only [Counters.add, decide_eq_true_eq]
    omega

theorem reapEach_settles (exited : List Exited)
    (owed : Owed codes past world (exited.map fun container => container.row.id))
    (read : ReadAll codes past exited) :
    Settles codes (fun past world _ => Owed codes past world []) (reapEach exited) past
      world := by
  induction exited generalizing past world with
  | nil => exact owed
  | cons container rest induction =>
      have ⟨code, found⟩ := read container (by simp)
      apply ask_bind.mpr
      intro counted world₁ step₁
      refine ⟨trivial, ?_⟩
      have removes : Settles codes
          (fun past world _ =>
            Owed codes past world (rest.map fun container => container.row.id) ∧
              ReadAll codes past rest)
          (docker (.remove container.row.id))
          (⟨world, .count (.jobDone container.exitCode), counted, world₁⟩ :: past)
          world₁ := by
        apply docker_iff.mpr
        intro answer after step₂
        have ⟨⟨out, ok⟩, gone⟩ := step₂.2.2.gone _ _ _ _ rfl
        rw [code] at step₁ ⊢
        have later : ReadAll codes past rest := fun other member =>
          read other (by simp [member])
        subst ok
        exact ⟨trivial, owed.settle found step₁.1 step₂.1 gone, later.grow.grow⟩
      apply Attempt.bind removes
      exact fun past₂ world₂ _ ⟨owed₂, read₂⟩ => induction owed₂ read₂

theorem reapExitedContainers_settles (owed : Owed codes past world []) :
    Settles codes (fun past world _ => Owed codes past world []) reapExitedContainers past
      world := by
  have listed : Settles codes
      (fun past world out => Owed codes past world ((rows out.stdout).map Row.id))
      (docker .listExited) past world := by
    apply docker_iff.mpr
    intro answer after step
    refine ⟨trivial, ?_⟩
    cases answer with
    | ok out => exact owed.listing step
    | error raised =>
        have silent : exitedIds ⟨world, .docker .listExited, .error raised, after⟩ = [] := rfl
        have remembering : after.memory = world.memory := HostStep.remembering step.1
        constructor
        · exact owed.nodup
        · simp
        · intro id member counted
          rw [seen_cons_of_none silent] at member
          have ⟨removed, moment, found, reads⟩ := owed.settled id member counted
          exact ⟨removed_subset step.1 removed, moment, List.mem_cons_of_mem _ found, reads⟩
        · rw [seen_cons_of_none silent, remembering]
          exact owed.total
        · rw [seen_cons_of_none silent, remembering]
          exact owed.failed
  have exited : Settles codes
      (fun past world exited =>
        Owed codes past world (exited.map fun container => container.row.id) ∧
          ReadAll codes past exited) exitedJobContainers past world := by
    apply Attempt.bind listed
    intro past₁ world₁ out owed₁
    apply Attempt.result_mono (inspectRows_settles _ [] owed₁ (by simp [ReadAll]))
    intro past₂ world₂ exited ⟨owed₂, same, read₂⟩
    rw [← same, List.map_map] at owed₂
    exact ⟨owed₂, read₂⟩
  apply Attempt.bind exited
  intro past₁ world₁ exited ⟨owed₁, read₁⟩
  exact Attempt.bind (reapEach_settles exited owed₁ read₁) fun _ _ _ owed => owed

theorem tick_settles (owed : Owed codes past world []) :
    Settles codes (fun past world _ => Owed codes past world []) (tick cfg) past world := by
  apply Attempt.bind (settles_of_within (Of.wider inspectRunnerImage_within (by decide)) owed)
  intro past₁ world₁ _ owed₁
  apply Attempt.bind (reapExitedContainers_settles owed₁)
  intro past₂ world₂ orphans owed₂
  have running : runningJobContainers.Within (Of [.plain, .registers, .starts]) :=
    (docker_within .listRunning (by decide)).bind fun _ => Attempt.within_pure _
  apply Attempt.bind (settles_of_within running owed₂)
  intro past₃ world₃ live owed₃
  apply Attempt.bind (settles_of_within (Of.wider (survey_within _ _ _) (by decide)) owed₃)
  intro past₄ world₄ perRepo owed₄
  apply Attempt.bind (settles_of_within (Of.wider (maybeSpawn_within _ _) (by decide)) owed₄)
  intro past₅ world₅ _ owed₅
  exact settles_of_within (Of.wider (writeStatus_within _ _ _) (by decide)) owed₅

end

/-- After each pass the jobs are accounted for, in every run in which inspections work
and removed containers are gone. -/
theorem jobs_accounted {cfg : Config} {world : World} (codes : String → Int)
    (run : SupervisorRun cfg world)
    (started : world.memory.counters.jobsTotal = 0 ∧
      world.memory.counters.jobsFailedTotal = 0)
    (tells : ∀ moment ∈ run.trace, DockerTells codes moment)
    (clears : ∀ moment ∈ run.trace, Clears moment) :
    Accounted codes run.past run.world.memory.counters := by
  have initially : Owed codes [] world [] := by
    constructor
    · exact List.nodup_nil
    · simp
    · simp [seen]
    · simp [started.1, seen]
    · simp [started.2, seen]
  have maintains : Maintains (clearing codes) (GithubRunner.run cfg)
      (fun past _ world => Owed codes past world []) fun _ _ => True :=
    fun past phase world owed => Attempt.any_error
      (run_preserves (owed_keeps.mono fun _ plain => Of.mono plain (by decide))
        (.of_always fun _ _ => tick_settles) phase past world owed)
  exact (LoopRun.inv_past maintains initially (run.restrict fun moment member =>
    ⟨tells moment member, clears moment member⟩)).accounted

/-! ## Pilots -/

/-- One container exited, and this is what becomes of its inspection and removal. -/
def exiting (inspected removed : Except Exception Completed) : Script where
  docker
    | .listExited => exits 0 "c|a"
    | .inspectExitCode _ => inspected
    | .remove _ => removed
    | .imageInspect _ => exits 1 ""
    | _ => exits 0 ""
  github
    | .generateJit _ _ _ _ => responds 500 []
    | _ => responds 200 []

def once (inspected removed : Except Exception Completed) :
    SupervisorRun pilotConfig pilotWorld :=
  (follow .begin (exiting inspected removed)).complete

def twice (inspected removed : Except Exception Completed) :
    SupervisorRun pilotConfig pilotWorld :=
  (follow (once inspected removed) (exiting inspected removed)).complete

/-- The pilot's container ends with 1. -/
def pilotCodes : String → Int := fun _ => 1

/-- Each listing shows containers once, and none that was removed. -/
def ListsPresent (moment : Moment interface World) : Prop :=
  (exitedIds moment).Nodup ∧ ∀ id ∈ exitedIds moment, id ∉ moment.before.removed

instance (moment : Moment interface World) : Decidable (ListsPresent moment) :=
  inferInstanceAs (Decidable (_ ∧ _))

/-- An inspection of the pilot tells its exit code, if it works. -/
def Truthful (inspected : Except Exception Completed) : Prop :=
  ∀ out, inspected = .ok out → out.returncode = 0 → Prints 1 out.stdout

/-- What every reply of the script satisfies, the pilots' moments do. -/
theorem twice_each {inspected removed : Except Exception Completed}
    {keep : Moment interface World → Prop}
    (each : ∀ past world operation, keep ⟨world, operation,
      (host (exiting inspected removed) past world operation).1,
      (host (exiting inspected removed) past world operation).2⟩) :
    (∀ moment ∈ (once inspected removed).trace, keep moment) ∧
      ∀ moment ∈ (twice inspected removed).trace, keep moment := by
  have first : ∀ moment ∈ (once inspected removed).trace, keep moment := by
    rw [once, LoopRun.complete_trace]
    exact follow_each (by simp [LoopRun.begin]) each
  refine ⟨first, ?_⟩
  rw [twice, LoopRun.complete_trace]
  exact follow_each
    (fun moment member => first moment (List.mem_append_left _ member)) each

def Told (moment : Moment interface World) : Prop :=
  ListsPresent moment → DockerTells pilotCodes moment

theorem reply_tells {inspected removed : Except Exception Completed}
    (truthful : Truthful inspected) (past : Past interface World) (world : World)
    (operation : Operation) :
    Told ⟨world, operation, (host (exiting inspected removed) past world operation).1,
      (host (exiting inspected removed) past world operation).2⟩ := by
  intro present
  refine ⟨present.1, present.2, ?_⟩
  intro id before out after same worked
  cases operation with
  | docker call =>
      cases call with
      | inspectExitCode other =>
          injection same with _ _ answered
          exact truthful out answered worked
      | _ => injection same with _ asked; cases asked
  | _ => injection same with _ asked; cases asked

theorem told_once {inspected removed : Except Exception Completed}
    (truthful : Truthful inspected) : ∀ moment ∈ (once inspected removed).trace,
    Told moment :=
  (twice_each (reply_tells truthful)).1

theorem told_twice {inspected removed : Except Exception Completed}
    (truthful : Truthful inspected) : ∀ moment ∈ (twice inspected removed).trace,
    Told moment :=
  (twice_each (reply_tells truthful)).2

theorem reply_clears {inspected removed : Completed} (worked : inspected.returncode = 0)
    (gone : removed.returncode = 0) (past : Past interface World) (world : World)
    (operation : Operation) :
    Clears ⟨world, operation,
      (host (exiting (.ok inspected) (.ok removed)) past world operation).1,
      (host (exiting (.ok inspected) (.ok removed)) past world operation).2⟩ := by
  constructor
  · intro id before answer after same
    cases operation with
    | docker call =>
        cases call with
        | inspectExitCode other =>
            injection same with _ _ answered
            exact ⟨inspected, answered.symm, worked⟩
        | _ => injection same with _ asked; cases asked
    | _ => injection same with _ asked; cases asked
  · intro id before answer after same
    cases operation with
    | docker call =>
        cases call with
        | remove other =>
            injection same with _ asked answered settled
            cases asked
            have taken : removedBy (.docker (.remove id)) (.ok removed) = {id} := if_pos gone
            refine ⟨⟨removed, answered.symm⟩, settled ▸ Finset.mem_union_right _ ?_⟩
            exact taken ▸ Finset.mem_singleton_self id
        | _ => injection same with _ asked; cases asked
    | _ => injection same with _ asked; cases asked

theorem prints_one : Prints 1 "1" := ⟨by decide, by decide +kernel⟩

theorem truthful_one : Truthful (exits 0 "1") := by
  intro out same worked
  cases same
  exact prints_one

theorem jobs_accounted_once :
    Accounted pilotCodes (once (exits 0 "1") (exits 0 "")).past
      (once (exits 0 "1") (exits 0 "")).world.memory.counters := by
  have present : ∀ moment ∈ (once (exits 0 "1") (exits 0 "")).trace,
      ListsPresent moment := by decide +kernel
  apply jobs_accounted pilotCodes
  · exact ⟨rfl, rfl⟩
  · exact fun moment member =>
      told_once truthful_one moment member (present moment member)
  · exact (twice_each (reply_clears rfl rfl)).1

theorem unread_counted :
    (∀ moment ∈ (once (exits 1 "") (exits 0 "")).trace, ListsPresent moment) ∧
      (once (exits 1 "") (exits 0 "")).world.memory.counters.jobsFailedTotal ≠
        ((seen (once (exits 1 "") (exits 0 "")).past).filter
          fun id => pilotCodes id ≠ 0).card := by
  decide +kernel

theorem kept_counted :
    (∀ moment ∈ (twice (exits 0 "1") (exits 1 "")).trace, ListsPresent moment) ∧
      (twice (exits 0 "1") (exits 1 "")).world.memory.counters.jobsTotal ≠
        (seen (twice (exits 0 "1") (exits 1 "")).past).card := by
  decide +kernel

/-- A container that cannot be inspected is counted as a success, and one that cannot be
removed is counted again. -/
theorem jobs_miscounted :
    (∃ run : SupervisorRun pilotConfig pilotWorld,
      (∀ moment ∈ run.trace, DockerTells pilotCodes moment) ∧
        run.world.memory.counters.jobsFailedTotal ≠
          ((seen run.past).filter fun id => pilotCodes id ≠ 0).card) ∧
      ∃ run : SupervisorRun pilotConfig pilotWorld,
        (∀ moment ∈ run.trace, DockerTells pilotCodes moment) ∧
          run.world.memory.counters.jobsTotal ≠ (seen run.past).card := by
  constructor
  · have ⟨present, wrong⟩ := unread_counted
    refine ⟨once (exits 1 "") (exits 0 ""), fun moment member => ?_, wrong⟩
    have truthful : Truthful (exits 1 "") := by
      intro out same worked
      cases same
      cases worked
    exact told_once truthful moment member (present moment member)
  · have ⟨present, wrong⟩ := kept_counted
    refine ⟨twice (exits 0 "1") (exits 1 ""), fun moment member => ?_, wrong⟩
    exact told_twice truthful_one moment member (present moment member)

end Homelab.GithubRunner
