import Homelab.HostAlerts.Readings
import Mathlib.Logic.Function.Basic

/-! # Runs of the PID budget alert

A run samples the containers that `docker ps` lists, and then removes the state files of the
containers that `docker ps -a` does not list. Either listing may fail.
-/

namespace Homelab.HostAlerts.PidBudget

open Text

/-- What the cgroup files say, where they can be read. No maximum means no limit. -/
structure Scope where
  current : Option Nat
  max : Option Nat

/-- What one run is told. `cut` are the names that `grep` finds before the list has been
written to its end, which `pipefail` takes for a failure. -/
structure Run where
  now : Nat
  running : List String
  scope : String → Option Scope
  succeeded : Bool
  existing : List String
  cut : String → Bool

/-- The state files, by the names of their containers. -/
abbrev StateDir := String → Option String

/-- The budget of a container, unless there is nothing to sample. -/
def Scope.sample (now : Nat) (scope : Scope) : Option Sample :=
  match scope.max with
  | none => none
  | some max => if 0 < max then some ⟨now, scope.current.getD 0, max⟩ else none

/-- The state files, and the samples so far with their containers. -/
abbrev Sampled := StateDir × List (String × Turn Sample)

def sampleContainer (cfg : Config) (run : Run) (sampled : Sampled) (name : String) : Sampled :=
  if name = "" then sampled
  else
    match (run.scope name).bind (Scope.sample run.now) with
    | none => sampled
    | some sample =>
        let reacted := react cfg.cooldownHours (reading cfg name sample) (sampled.1 name)
        (Function.update sampled.1 name (some reacted.2),
          sampled.2 ++ [(name, ⟨sample, reacted.1⟩)])

def sampleAll (cfg : Config) (run : Run) (files : StateDir) : Sampled :=
  run.running.foldl (sampleContainer cfg run) (files, [])

/-- What `printf '%s\n' "${EXISTING[@]}"` prints: one empty line for no names. -/
def Run.listed (run : Run) : List String :=
  if run.existing = [] then [""] else run.existing

def Run.finds (run : Run) (name : String) : Bool :=
  decide (name ∈ run.listed) && !run.cut name

def collectGarbage (run : Run) (files : StateDir) : StateDir :=
  fun name => if run.finds name then files name else none

structure Record where
  run : Run
  samples : List (String × Turn Sample)
  files : StateDir

def Record.after (record : Record) : StateDir := collectGarbage record.run record.files

/-- Runs one after the other, as the clock goes on. There are no state files at first. -/
inductive History (cfg : Config) : List Record → StateDir → Prop
  | start : History cfg [] fun _ => none
  | next {records files} (earlier : History cfg records files) (run : Run)
      (later : ∀ record ∈ records.getLast?, record.run.now ≤ run.now) :
      History cfg
        (records ++ [⟨run, (sampleAll cfg run files).2, (sampleAll cfg run files).1⟩])
        (collectGarbage run (sampleAll cfg run files).1)

def turnsIn (name : String) (samples : List (String × Turn Sample)) : List (Turn Sample) :=
  samples.filterMap fun sample => if sample.1 = name then some sample.2 else none

def turnsOf (name : String) (records : List Record) : List (Turn Sample) :=
  records.flatMap fun record => turnsIn name record.samples

/-- A state file is removed only in a run whose full listing succeeded without its
container. -/
def Record.RemovesOrphans (record : Record) : Prop :=
  ∀ name, record.files name ≠ none → record.after name = none →
    record.run.succeeded = true ∧ name ∉ record.run.existing

/-- The container exists: a listing that succeeds has it. -/
def Record.Exists (name : String) (record : Record) : Prop :=
  name ≠ "" ∧ (record.run.succeeded = true → name ∈ record.run.existing)

/-- No history is erased: state files go with their containers, and the notifications of a
container that exists throughout follow the laws. -/
structure Kept (cfg : Config) (records : List Record) : Prop where
  orphans : ∀ record ∈ records, record.RemovesOrphans
  laws : ∀ name, (∀ record ∈ records, record.Exists name) →
    Laws Sample.now (fun sample => cfg.warn ≤ sample.pct) (fun sample => cfg.crit ≤ sample.pct)
      cfg.cooldownHours (turnsOf name records)

/-- Every container with a state file is listed, unless the listing is complete. What is
listed is found. -/
def Record.Safe (record : Record) : Prop :=
  ∀ name, record.files name ≠ none →
    (record.run.succeeded = true ∨ name ∈ record.run.existing) ∧
      (name ∈ record.run.existing → record.run.cut name = false)

section

variable {cfg : Config} {run : Run} {name : String} {records : List Record}
  {files : StateDir}

/-! ## One container of many -/

/-- The samples of the container follow each other, up to the clock of the run. -/
structure Follows (cfg : Config) (name : String) (now : Nat) (turns : List (Turn Sample))
    (file : Option String) : Prop where
  runs : Runs (reading cfg name) cfg.cooldownHours turns file
  past : ∀ turn ∈ turns.getLast?, turn.sample.now ≤ now

theorem Follows.later {now later : Nat} {turns : List (Turn Sample)} {file : Option String}
    (follows : Follows cfg name now turns file) (forward : now ≤ later) :
    Follows cfg name later turns file :=
  ⟨follows.runs, fun turn member => (follows.past turn member).trans forward⟩

theorem turnsIn_append (samples more : List (String × Turn Sample)) :
    turnsIn name (samples ++ more) = turnsIn name samples ++ turnsIn name more :=
  List.filterMap_append

theorem Scope.sample_now {now : Nat} {scope : Scope} {sample : Sample}
    (sampled : scope.sample now = some sample) : sample.now = now := by
  rw [Scope.sample] at sampled
  split at sampled
  · cases sampled
  · split at sampled
    · cases sampled
      rfl
    · cases sampled

theorem sampleContainer_follows {front : List (Turn Sample)} {sampled : Sampled}
    (other : String)
    (follows : Follows cfg name run.now (front ++ turnsIn name sampled.2) (sampled.1 name)) :
    Follows cfg name run.now
      (front ++ turnsIn name (sampleContainer cfg run sampled other).2)
      ((sampleContainer cfg run sampled other).1 name) := by
  rw [sampleContainer]
  split
  · exact follows
  · split
    · exact follows
    · next sample found =>
        rcases Option.bind_eq_some_iff.mp found with ⟨scope, _, read⟩
        have clock := Scope.sample_now read
        simp only [turnsIn_append]
        by_cases same : other = name
        · subst same
          rw [Function.update_self, ← List.append_assoc]
          simp only [turnsIn, List.filterMap_cons, if_true, List.filterMap_nil]
          constructor
          · apply follows.runs.next sample
            intro turn member
            exact (follows.past turn member).trans clock.ge
          · simp [clock]
        · rw [Function.update_of_ne (Ne.symm same)]
          simpa [turnsIn, same] using follows

theorem sampleAll_follows {front : List (Turn Sample)}
    (follows : Follows cfg name run.now front (files name)) :
    Follows cfg name run.now (front ++ turnsIn name (sampleAll cfg run files).2)
      ((sampleAll cfg run files).1 name) := by
  have folded : ∀ (names : List String) (sampled : Sampled),
      Follows cfg name run.now (front ++ turnsIn name sampled.2) (sampled.1 name) →
      Follows cfg name run.now
        (front ++ turnsIn name (names.foldl (sampleContainer cfg run) sampled).2)
        ((names.foldl (sampleContainer cfg run) sampled).1 name) := by
    intro names
    induction names with
    | nil => exact fun _ known => known
    | cons other rest induction =>
        exact fun sampled known => induction _ (sampleContainer_follows other known)
  apply folded run.running (files, [])
  simpa [turnsIn] using follows

/-! ## The garbage collection -/

theorem finds_iff (run : Run) (named : name ≠ "") :
    run.finds name = true ↔ name ∈ run.existing ∧ run.cut name = false := by
  rw [Run.finds, Bool.and_eq_true, decide_eq_true_eq, Bool.not_eq_true', Run.listed]
  split
  · next empty => simp [empty, named]
  · exact Iff.rfl

theorem after_eq_none_iff {record : Record} (present : record.files name ≠ none) :
    record.after name = none ↔ record.run.finds name = false := by
  rw [Record.after, collectGarbage]
  cases record.run.finds name <;> simp [present]

theorem removesOrphans_iff {record : Record} (unnamed : record.files "" = none) :
    record.RemovesOrphans ↔ record.Safe := by
  have named : ∀ {name}, record.files name ≠ none → name ≠ "" := by
    rintro name present rfl
    exact present unnamed
  constructor
  · intro orphans name present
    have found := finds_iff record.run (named present)
    have removed := after_eq_none_iff present
    have orphan := orphans name present
    grind
  · intro safe name present removed
    have found := finds_iff record.run (named present)
    have gone := (after_eq_none_iff present).mp removed
    have known := safe name present
    grind

theorem after_of_safe {record : Record} (safe : record.Safe) (exists_ : record.Exists name) :
    record.after name = record.files name := by
  by_cases present : record.files name = none
  · rw [Record.after, collectGarbage, present, ite_self]
  · have known := safe name present
    have listed : name ∈ record.run.existing := known.1.elim exists_.2 id
    have found : record.run.finds name = true :=
      (finds_iff record.run exists_.1).mpr ⟨listed, known.2 listed⟩
    rw [Record.after, collectGarbage, if_pos found]

/-! ## Histories -/

theorem sampleAll_unnamed (unnamed : files "" = none) :
    (sampleAll cfg run files).1 "" = none := by
  have folded : ∀ (names : List String) (sampled : Sampled), sampled.1 "" = none →
      (names.foldl (sampleContainer cfg run) sampled).1 "" = none := by
    intro names
    induction names with
    | nil => exact fun _ known => known
    | cons other rest induction =>
        intro sampled known
        apply induction
        rw [sampleContainer]
        split
        · exact known
        · next named =>
            split
            · exact known
            · simp only
              rw [Function.update_of_ne (Ne.symm named)]
              exact known
  exact folded run.running (files, []) unnamed

theorem history_unnamed (history : History cfg records files) :
    files "" = none ∧ ∀ record ∈ records, record.files "" = none := by
  induction history with
  | start => simp
  | @next records files earlier run later induction =>
      have unnamed : (sampleAll cfg run files).1 "" = none := sampleAll_unnamed induction.1
      constructor
      · rw [collectGarbage, unnamed, ite_self]
      · intro record member
        rw [List.mem_append, List.mem_singleton] at member
        rcases member with member | rfl
        · exact induction.2 record member
        · exact unnamed

theorem history_follows (history : History cfg records files)
    (safe : ∀ record ∈ records, record.Safe) (exists_ : ∀ record ∈ records, record.Exists name)
    {now : Nat} (forward : ∀ record ∈ records.getLast?, record.run.now ≤ now) :
    Follows cfg name now (turnsOf name records) (files name) := by
  induction history generalizing now with
  | start => exact ⟨.start, by simp [turnsOf]⟩
  | @next records files earlier run later induction =>
      have follows := induction (fun record member => safe record (by simp [member]))
        (fun record member => exists_ record (by simp [member])) later
      have sampled := sampleAll_follows follows
      have kept := after_of_safe (safe ⟨run, _, (sampleAll cfg run files).1⟩ (by simp))
        (exists_ ⟨run, (sampleAll cfg run files).2, (sampleAll cfg run files).1⟩ (by simp))
      rw [Record.after] at kept
      have last := forward ⟨run, (sampleAll cfg run files).2, (sampleAll cfg run files).1⟩
        (by simp)
      simp only [turnsOf, List.flatMap_append, List.flatMap_singleton]
      rw [kept]
      exact sampled.later last

theorem history_laws (ordered : cfg.warn ≤ cfg.crit) (history : History cfg records files)
    (safe : ∀ record ∈ records, record.Safe)
    (exists_ : ∀ record ∈ records, record.Exists name) :
    Laws Sample.now (fun sample => cfg.warn ≤ sample.pct) (fun sample => cfg.crit ≤ sample.pct)
      cfg.cooldownHours (turnsOf name records) := by
  have forward : ∀ record ∈ records.getLast?,
      record.run.now ≤ (records.getLast?.map fun record => record.run.now).getD 0 := by
    intro record member
    rw [Option.mem_def] at member
    simp [member]
  exact runs_laws ordered (history_follows history safe exists_ forward).runs

end

/-- No history is erased exactly where every run finds the state files of the containers that
it does not know to be gone. -/
theorem keeps_history_iff {cfg : Config} {records : List Record} {files : StateDir}
    (ordered : cfg.warn ≤ cfg.crit) (history : History cfg records files) :
    Kept cfg records ↔ ∀ record ∈ records, record.Safe := by
  have unnamed := (history_unnamed history).2
  constructor
  · intro kept record member
    exact (removesOrphans_iff (unnamed record member)).mp (kept.orphans record member)
  · intro safe
    refine ⟨fun record member => ?_, fun name => history_laws ordered history safe⟩
    exact (removesOrphans_iff (unnamed record member)).mpr (safe record member)

/-! ## A failed listing -/

def pilotConfig : Config := ⟨70, 90, 24⟩

/-- The one container is at 80 per cent. Its listing is complete, or it fails and prints
nothing. -/
def pilotRun (now : Nat) (succeeded : Bool) : Run where
  now := now
  running := ["sonarr"]
  scope := fun _ => some ⟨some 80, some 100⟩
  succeeded := succeeded
  existing := if succeeded then ["sonarr"] else []
  cut := fun _ => false

def recorded (run : Run) (files : StateDir) : Record :=
  ⟨run, (sampleAll pilotConfig run files).2, (sampleAll pilotConfig run files).1⟩

def listedRecord : Record := recorded (pilotRun 0 true) fun _ => none

def quietRecord : Record := recorded (pilotRun 900 true) listedRecord.after

/-- Complete listings keep the state, so the second run does not notify again. -/
theorem keeps_history_iff_listed : Kept pilotConfig [listedRecord, quietRecord] ∧
    (turnsOf "sonarr" [listedRecord, quietRecord]).map (fun turn => (turn.sample, turn.fired)) =
      [(⟨0, 80, 100⟩, some .warn), (⟨900, 80, 100⟩, none)] := by
  have first : History pilotConfig [listedRecord] listedRecord.after :=
    History.start.next (pilotRun 0 true) (by simp)
  have history : History pilotConfig [listedRecord, quietRecord] quietRecord.after :=
    first.next (pilotRun 900 true) (by simp [listedRecord, recorded, pilotRun])
  have safe : ∀ record ∈ [listedRecord, quietRecord], record.Safe := by
    intro record member name _
    rcases List.mem_pair.mp member with rfl | rfl
    · exact ⟨.inl rfl, fun _ => rfl⟩
    · exact ⟨.inl rfl, fun _ => rfl⟩
  exact ⟨(keeps_history_iff (by decide) history).mpr safe, by decide +kernel⟩

def failedRecord : Record :=
  ⟨pilotRun 0 false, (sampleAll pilotConfig (pilotRun 0 false) fun _ => none).2,
    (sampleAll pilotConfig (pilotRun 0 false) fun _ => none).1⟩

def nextRecord : Record :=
  ⟨pilotRun 900 true, (sampleAll pilotConfig (pilotRun 900 true) failedRecord.after).2,
    (sampleAll pilotConfig (pilotRun 900 true) failedRecord.after).1⟩

theorem failedRecord_history : History pilotConfig [failedRecord, nextRecord] nextRecord.after := by
  have first : History pilotConfig [failedRecord] failedRecord.after :=
    History.start.next (pilotRun 0 false) (by simp)
  exact first.next (pilotRun 900 true) (by simp [failedRecord, pilotRun])

theorem failedRecord_fires :
    (turnsOf "sonarr" [failedRecord, nextRecord]).map (fun turn => (turn.sample, turn.fired)) =
      [(⟨0, 80, 100⟩, some .warn), (⟨900, 80, 100⟩, some .warn)] := by decide +kernel

/-- The listing fails, the state of a container that exists is removed, and the next run
notifies again after a quarter of an hour. -/
theorem failed_listing_erases : ∃ records files, History pilotConfig records files ∧
    (∀ record ∈ records, record.Exists "sonarr") ∧ ¬Kept pilotConfig records := by
  have present : ∀ record ∈ [failedRecord, nextRecord], record.Exists "sonarr" := by
    simp [Record.Exists, failedRecord, nextRecord, pilotRun]
  refine ⟨_, _, failedRecord_history, present, fun kept => ?_⟩
  have laws := kept.laws "sonarr" present
  rcases List.map_eq_cons_iff.mp failedRecord_fires with ⟨first, _, split, one, rest⟩
  rcases List.map_eq_singleton_iff.mp rest with ⟨second, rfl, two⟩
  rw [Prod.mk.injEq] at one two
  have apart := laws.apart [] first [] second [] .warn split (by simp)
    (by simp [two.1, pilotConfig, Sample.pct]) (by decide) one.2 two.2
  rw [one.1, two.1] at apart
  exact absurd apart (by decide)

end Homelab.HostAlerts.PidBudget
