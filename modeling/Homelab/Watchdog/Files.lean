import Homelab.AtomicFile.Interleaved
import Homelab.Effects.Interpretation
import Homelab.Watchdog.Execute

/-! # The scan on a disk

The scan again, with every file it writes written by `atomicfile.Write`, system call by system
call. A scan can be killed inside of a write. What files hold is symbolic: the pieces of the
document that was written.
-/

namespace Homelab.Watchdog

open Effects ByteText
open AtomicFile (Disk File Job Path)

/-- What is written to files, and a ledger that nobody can read. -/
inductive Document
  | ledger (r : Result)
  | metrics (r : Result) (budget : Int)
  | state (content : Bytes)
  | garbage

/-- A document in pieces. One that is cut short is no document any more. -/
abbrev Piece := Document × Nat

def Document.pieces (size : Document → Nat) (document : Document) : List Piece :=
  (List.range (size document + 1)).map fun index => (document, index)

theorem Document.pieces_inj {size : Document → Nat} {document other : Document}
    (same : document.pieces size = other.pieces size) : document = other := by
  have heads := congrArg List.head? same
  simp only [pieces, List.range_succ_eq_map, List.map_cons, List.head?_cons, Option.some.injEq,
    Prod.mk.injEq, and_true] at heads
  exact heads

structure Places where
  ledger : Path
  textfile : Path
  stateDir : Bytes
  size : Document → Nat
  ledger_plain : ledger.isTemp = false
  textfile_plain : textfile.isTemp = false
  distinct : ledger ≠ textfile
  no_state : ∀ name : Name, ∀ path ∈ [ledger, textfile],
    path ≠ ⟨stateDir, ascii "watchdog-" ++ name ++ ascii ".state"⟩

namespace Places

def state (places : Places) (name : Name) : Path :=
  ⟨places.stateDir, ascii "watchdog-" ++ name ++ ascii ".state"⟩

theorem state_plain (places : Places) (name : Name) :
    (places.state name).isTemp = false := rfl

theorem ledger_ne_state (places : Places) (name : Name) : places.ledger ≠ places.state name :=
  places.no_state name _ List.mem_cons_self

theorem textfile_ne_state (places : Places) (name : Name) :
    places.textfile ≠ places.state name :=
  places.no_state name _ (List.mem_cons_of_mem _ List.mem_cons_self)

theorem state_inj {places : Places} {name other : Name}
    (same : places.state name = places.state other) : name = other := by
  have bases := congrArg Path.base same
  simpa [state] using bases

end Places

def dataAt (disk : Disk Piece) (path : Path) : Option (List Piece) :=
  (disk.read path).map File.data

/-- The system calls of `Write`, and everything else that a scan asks for. -/
abbrev calls : Interface := (AtomicFile.interface Piece).sum interface

/-- A scan, asked to write a file, calls `atomicfile.Write`. -/
def handle (places : Places) : (operation : Operation) → Program calls (Answer operation)
  | .writeLedger r =>
      (AtomicFile.write places.ledger ((Document.ledger r).pieces places.size) 0o600).inl
  | .writeTextfile r budget =>
      (AtomicFile.write places.textfile ((Document.metrics r budget).pieces places.size)
        0o644).inl
  | .writeState name content =>
      (AtomicFile.write (places.state name) ((Document.state content).pieces places.size)
        0o600).inl
  | operation => .call (.inr operation) .done

def Document.readsLedger : Document → LedgerRead → Prop
  | .ledger r, answer => answer = .decoded r
  | .garbage, answer => answer = .malformed
  | _, _ => True

def Document.readsState : Document → StateRead → Prop
  | .state content, answer => answer = .data content
  | _, _ => True

/-- Reading may fail. Otherwise a whole document reads as what it is, and anything else as
whatever it may. -/
def asked (places : Places) (disk : Disk Piece) (operation : Operation) (answer : Answer operation)
    (after : Disk Piece) : Prop :=
  match operation, answer with
  | .readLedger, (answer : LedgerRead) =>
      after = disk ∧ ((∃ message, answer = .failed message) ∨
        match dataAt disk places.ledger with
        | none => answer = .notExist
        | some data => ∀ document : Document, data = document.pieces places.size →
            document.readsLedger answer)
  | .readState name, (answer : StateRead) =>
      after = disk ∧ ((∃ message, answer = .failed message) ∨
        match dataAt disk (places.state name) with
        | none => answer = .notExist
        | some data => ∀ document : Document, data = document.pieces places.size →
            document.readsState answer)
  | .globStates, (answer : Except String (List Name)) =>
      after = disk ∧
        match answer with
        | .ok files => ∀ name ∈ files, (disk.entries (places.state name)).isSome = true
        | .error _ => True
  | .removeState name, (answer : Except String Unit) =>
      match answer with
      | .ok _ => after = disk.unlink (places.state name)
      | .error _ => after = disk
  | _, _ => after = disk

def files (places : Places) : System calls (Disk Piece) where
  Step disk operation answer after :=
    match operation, answer with
    | .inl operation, answer => AtomicFile.system.Step disk operation answer after
    | .inr operation, answer => asked places disk operation answer after

/-! ## What the disk shows -/

def LedgerFile.document? : LedgerFile → Option Document
  | .absent => none
  | .corrupt => some .garbage
  | .document r => some (.ledger r)

structure Shows (places : Places) (disk : Disk Piece) (world : World) : Prop where
  sound : disk.Sound
  ledger : dataAt disk places.ledger =
    world.ledger.document?.map (Document.pieces places.size)
  legacy : ∀ name, dataAt disk (places.state name) =
    (world.legacy name).map fun content => (Document.state content).pieces places.size

def told : (operation : Operation) → Answer operation → Option (Operation × Bool)
  | .restart name, (answer : Except String Unit) => some (.restart name, answer.isOk)
  | .notifyHelper title priority tags body, (answer : Except String Unit) =>
      some (.notifyHelper title priority tags body, answer.isOk)
  | _, _ => none

def toldAbove (moment : Moment interface World) : Option (Operation × Bool) :=
  told moment.operation moment.answer

def toldBelow (moment : Moment calls (Disk Piece)) : Option (Operation × Bool) :=
  match moment.operation, moment.answer with
  | .inl _, _ => none
  | .inr operation, answer => told operation answer

/-! ## Writing -/

section Writing

variable {places : Places} {disk final : Disk Piece} {world : World}
  {moments : List (Moment calls (Disk Piece))} {outcome : Option (Except String Unit)}

theorem unseen (moments : List (Moment (AtomicFile.interface Piece) (Disk Piece))) :
    noticed toldBelow (moments.map Moment.ofLeft) = [] := by
  rw [noticed, List.filterMap_map]
  exact List.filterMap_eq_nil_iff.mpr fun _ _ => rfl

theorem Shows.untouched (shows : Shows places disk world) (sound : final.Sound)
    (same : AtomicFile.Untouched disk final) : Shows places final world where
  sound := sound
  ledger := by
    rw [dataAt, same _ places.ledger_plain]
    exact shows.ledger
  legacy name := by
    rw [dataAt, same _ (places.state_plain name)]
    exact shows.legacy name

theorem Shows.ledger_written {r : Result} {mode : Nat} (shows : Shows places disk world)
    (sound : final.Sound) (replaced : AtomicFile.Replaced disk final
      ⟨places.ledger, (Document.ledger r).pieces places.size, mode⟩) :
    Shows places final { world with ledger := .document r } where
  sound := sound
  ledger := by
    have read := replaced.same places.ledger_plain
    rw [dataAt, read]
    rfl
  legacy name := by
    rw [dataAt, replaced.other (places.ledger_ne_state name) (places.state_plain name)]
    exact shows.legacy name

theorem Shows.textfile_written {data : List Piece} {mode : Nat} (shows : Shows places disk world)
    (sound : final.Sound) (replaced : AtomicFile.Replaced disk final
      ⟨places.textfile, data, mode⟩) : Shows places final world where
  sound := sound
  ledger := by
    rw [dataAt, replaced.other places.distinct.symm places.ledger_plain]
    exact shows.ledger
  legacy name := by
    rw [dataAt, replaced.other (places.textfile_ne_state name) (places.state_plain name)]
    exact shows.legacy name

theorem Shows.state_written {name : Name} {content : Bytes} {mode : Nat}
    (shows : Shows places disk world) (sound : final.Sound)
    (replaced : AtomicFile.Replaced disk final
      ⟨places.state name, (Document.state content).pieces places.size, mode⟩) :
    Shows places final
      { world with legacy := Function.update world.legacy name (some content) } where
  sound := sound
  ledger := by
    rw [dataAt, replaced.other (places.ledger_ne_state name).symm places.ledger_plain]
    exact shows.ledger
  legacy other := by
    by_cases same : other = name
    · subst same
      have read := replaced.same (places.state_plain other)
      rw [dataAt, read]
      simp [AtomicFile.Job.file]
    · have different : places.state name ≠ places.state other := fun equal =>
        same (Places.state_inj equal.symm)
      rw [dataAt, replaced.other different (places.state_plain other)]
      have kept : Function.update world.legacy name (some content) other = world.legacy other :=
        Function.update_of_ne same _ _
      exact (shows.legacy other).trans (congrArg (Option.map _) kept.symm)

/-- A file that is written is written, or nothing has happened yet. -/
theorem Shows.writes {job : Job Piece} {after : World} (shows : Shows places disk world)
    (plain : job.path.isTemp = false)
    (written : ∀ final, final.Sound → AtomicFile.Replaced disk final job →
      Shows places final after)
    (execution : Executes (files places) (job.program.inl : Program calls _) disk moments final
      outcome) :
    noticed toldBelow moments = [] ∧
      ((outcome ≠ some (.ok ()) ∧ Shows places final world) ∨
        (∀ answer, outcome = some answer → answer = .ok ()) ∧ Shows places final after) := by
  obtain ⟨below, alone, mapped⟩ : ∃ below, Executes AtomicFile.system job.program disk below final
      outcome ∧ moments = below.map Moment.ofLeft :=
    execution.inl_inv fun _ _ _ _ step => step
  refine ⟨mapped ▸ unseen below, ?_⟩
  rcases AtomicFile.write_alone shows.sound plain alone with
    ⟨sound, ⟨failed, untouched⟩ | ⟨succeeded, replaced⟩⟩
  · exact .inl ⟨failed, shows.untouched sound untouched⟩
  · exact .inr ⟨succeeded, written final sound replaced⟩

end Writing

/-! ## Asking -/

section Asking

variable {places : Places} {disk after : Disk Piece} {world : World}

theorem Shows.removed {name : Name} (shows : Shows places disk world) :
    Shows places (disk.unlink (places.state name))
      { world with legacy := Function.update world.legacy name none } where
  sound path inode found := by
    rw [Disk.unlink_entries] at found
    split at found
    · cases found
    · exact shows.sound path inode found
  ledger := by
    rw [← shows.ledger, dataAt, dataAt, Disk.read, Disk.read,
      Disk.unlink_entries, if_neg (places.ledger_ne_state name), Disk.unlink_files]
  legacy other := by
    rw [dataAt, Disk.read, Disk.unlink_entries]
    by_cases same : other = name
    · subst same
      simp
    · have kept : Function.update world.legacy name none other = world.legacy other :=
        Function.update_of_ne same _ _
      rw [if_neg fun equal => same (Places.state_inj equal)]
      exact (shows.legacy other).trans (congrArg (Option.map _) kept.symm)

theorem Shows.globbed (shows : Shows places disk world) (name : Name) :
    (disk.entries (places.state name)).isSome = (world.legacy name).isSome := by
  have content := congrArg Option.isSome (shows.legacy name)
  simpa [dataAt, Disk.read] using content

/-- What is asked of the disk can be asked of the world. -/
theorem Shows.asks {operation : Operation} {answer : Answer operation}
    (shows : Shows places disk world)
    (unwritten : handle places operation = .call (.inr operation) .done)
    (step : asked places disk operation answer after) :
    ∃ world', system.Step world operation answer world' ∧ Shows places after world' := by
  cases operation with
  | readLedger =>
      change LedgerRead at answer
      rcases step with ⟨same, read⟩
      subst same
      refine ⟨world, ⟨rfl, ?_⟩, shows⟩
      rcases read with failed | read
      · exact .inr failed
      · rw [shows.ledger] at read
        cases ledger : world.ledger with
        | absent =>
            rw [ledger] at read
            exact .inl read
        | corrupt =>
            rw [ledger] at read
            exact .inl (read .garbage rfl)
        | document r =>
            rw [ledger] at read
            exact .inl (read (.ledger r) rfl)
  | readState name =>
      change StateRead at answer
      rcases step with ⟨same, read⟩
      subst same
      refine ⟨world, ⟨rfl, ?_⟩, shows⟩
      rcases read with failed | read
      · exact .inl failed
      · rw [shows.legacy name] at read
        refine .inr ?_
        cases file : world.legacy name with
        | none =>
            rw [file] at read
            exact read
        | some content =>
            rw [file] at read
            exact read (.state content) rfl
  | globStates =>
      change Except String (List Name) at answer
      rcases step with ⟨same, listed⟩
      subst same
      refine ⟨world, ⟨rfl, ?_⟩, shows⟩
      cases answer with
      | error message => trivial
      | ok files =>
          intro name member
          rw [← shows.globbed name]
          exact listed name member
  | removeState name =>
      change Except String Unit at answer
      cases answer with
      | error message =>
          have same : after = disk := step
          subst same
          exact ⟨world, rfl, shows⟩
      | ok _ =>
          have unlinked : after = disk.unlink (places.state name) := step
          subst unlinked
          exact ⟨_, rfl, shows.removed⟩
  | writeLedger r => cases unwritten
  | writeTextfile r budget => cases unwritten
  | writeState name content => cases unwritten
  | openLog =>
      have same : after = disk := step
      subst same
      exact ⟨world, rfl, shows⟩
  | psUnhealthy =>
      have same : after = disk := step
      subst same
      exact ⟨world, rfl, shows⟩
  | psAll =>
      have same : after = disk := step
      subst same
      exact ⟨world, rfl, shows⟩
  | restart name =>
      have same : after = disk := step
      subst same
      exact ⟨world, rfl, shows⟩
  | notifyHelper title priority tags body =>
      have same : after = disk := step
      subst same
      exact ⟨world, rfl, shows⟩

end Asking

/-! ## One level above another -/

theorem write_does {places : Places} {job : Job Piece} (written : World → World)
    {step : World → Except String Unit → World → Prop}
    (plain : job.path.isTemp = false)
    (shows : ∀ {disk final world}, Shows places disk world → final.Sound →
      AtomicFile.Replaced disk final job → Shows places final (written world))
    (succeeds : ∀ world, step world (.ok ()) (written world))
    (fails : ∀ world message, step world (.error message) world) :
    Does (files places) (job.program.inl : Program calls _) (Shows places) step toldBelow
      fun _ _ _ => none where
  completes := by
    intro disk final world moments answer starts execution
    have ⟨unseen, outcome⟩ := starts.writes plain (fun _ => shows starts) execution
    rcases outcome with ⟨failed, still⟩ | ⟨succeeded, now⟩
    · cases answer with
      | ok result => exact absurd rfl failed
      | error message => exact ⟨world, fails world message, still, unseen⟩
    · rw [succeeded answer rfl]
      exact ⟨written world, succeeds world, now, unseen⟩
  killed := by
    intro disk final world moments starts execution
    have ⟨unseen, outcome⟩ := starts.writes plain (fun _ => shows starts) execution
    rcases outcome with ⟨_, still⟩ | ⟨_, now⟩
    · exact .inl ⟨still, unseen⟩
    · exact .inr ⟨.ok (), written world, succeeds world, now, unseen⟩

theorem ask_does {places : Places} {operation : Operation}
    (unwritten : handle places operation = .call (.inr operation) .done) :
    Does (files places) (handle places operation) (Shows places)
      (fun world answer after => system.Step world operation answer after) toldBelow
      fun _ answer _ => told operation answer where
  completes := by
    intro disk final world moments answer starts execution
    rw [unwritten] at execution
    cases execution with
    | call step later =>
        rcases later.done_inv with ⟨nothing, same, ended⟩
        subst nothing same
        rcases starts.asks unwritten step with ⟨after, step', now⟩
        cases ended.resolve_left (Option.some_ne_none _)
        exact ⟨after, step', now, noticed_singleton _ _⟩
  killed := by
    intro disk final world moments starts execution
    rw [unwritten] at execution
    cases execution with
    | killed => exact .inl ⟨starts, rfl⟩
    | call step later =>
        rcases later.done_inv with ⟨nothing, same, _⟩
        subst nothing same
        rcases starts.asks unwritten step with ⟨after, step', now⟩
        exact .inr ⟨_, after, step', now, noticed_singleton _ _⟩

/-- Each operation of a scan is done on the disk. -/
theorem files_implement (places : Places) :
    Implements (files places) system (handle places) (Shows places) toldBelow toldAbove := by
  intro operation
  cases operation with
  | writeLedger r =>
      exact write_does (fun world => { world with ledger := .document r }) places.ledger_plain
        (fun shows sound replaced => shows.ledger_written sound replaced) (fun _ => rfl)
        fun _ _ => rfl
  | writeTextfile r budget =>
      exact write_does (fun world => world) places.textfile_plain
        (fun shows sound replaced => shows.textfile_written sound replaced) (fun _ => rfl)
        fun _ _ => rfl
  | writeState name content =>
      exact write_does
        (fun world => { world with legacy := Function.update world.legacy name (some content) })
        (places.state_plain name)
        (fun shows sound replaced => shows.state_written sound replaced) (fun _ => rfl)
        fun _ _ => rfl
  | readLedger => exact ask_does rfl
  | openLog => exact ask_does rfl
  | psUnhealthy => exact ask_does rfl
  | psAll => exact ask_does rfl
  | readState name => exact ask_does rfl
  | restart name => exact ask_does rfl
  | notifyHelper title priority tags body => exact ask_does rfl
  | globStates => exact ask_does rfl
  | removeState name => exact ask_does rfl

/-- `Execute` down to the system calls of `Write`. -/
def executeOn (places : Places) (cfg : Config) (now : Int) :
    Program calls (Except String Unit) :=
  (execute cfg now).run.interpret (handle places)

/-- Scans on a disk, killed anywhere, are scans of the files as a whole: with the same
parameters and outcomes, run by run, the same restarts and the same pages. -/
theorem scans_on_disk {places : Places} {initial final : Disk Piece} {world : World}
    {runs : List (Run calls (Disk Piece) (Config × Int) (Except String Unit))}
    (starts : Shows places initial world)
    (history : History (files places) (fun scan => executeOn places scan.1 scan.2) initial runs
      final) :
    ∃ scans after, Scans world scans after ∧ Shows places final after ∧
      List.Forall₂ (Alike toldBelow toldAbove) runs scans :=
  (files_implement places).history starts history

def samplePlaces : Places where
  ledger := ⟨ascii "/", ascii "ledger"⟩
  textfile := ⟨ascii "/", ascii "metrics"⟩
  stateDir := ascii "/state"
  size _ := 0
  ledger_plain := rfl
  textfile_plain := rfl
  distinct := by decide
  no_state := by
    intro name path member same
    have directory := congrArg Path.directory same
    simp only [List.mem_cons, List.not_mem_nil, or_false] at member
    rcases member with rfl | rfl <;> cases directory

def emptyDisk : Disk Piece := ⟨fun _ => none, fun _ => ⟨[], 0⟩, 0⟩

theorem emptyDisk_shows : Shows samplePlaces emptyDisk .fresh where
  sound _ _ found := by cases found
  ledger := rfl
  legacy _ := rfl

/-- A scan without Docker that is killed while it writes the ledger. -/
def cutShort : Run calls (Disk Piece) (Config × Int) (Except String Unit) :=
  let file : AtomicFile.Handle := ⟨⟨ascii "/", ascii ".homelab-1"⟩, 0⟩
  let created := emptyDisk.create file.name
  ⟨(samplePolicy, 1000), emptyDisk,
    [⟨emptyDisk, .inr .readLedger, LedgerRead.notExist, emptyDisk⟩,
      ⟨emptyDisk, .inr .openLog, (.ok () : Except String Unit), emptyDisk⟩,
      ⟨emptyDisk, .inr .psUnhealthy, (.error "exit status 1" : Except String Bytes), emptyDisk⟩,
      ⟨emptyDisk, .inl (.createTemp (ascii "/")), (.ok file : Except String AtomicFile.Handle),
        created⟩,
      ⟨created, .inl (.chmod file 0o600), (.ok () : Except String Unit),
        created.setMode file.inode 0o600⟩],
    created.setMode file.inode 0o600, none⟩

theorem cutShort_valid : cutShort.Valid (files samplePlaces)
    fun scan => executeOn samplePlaces scan.1 scan.2 := by
  refine .call ⟨rfl, .inr rfl⟩ ?_
  refine .call rfl ?_
  refine .call rfl ?_
  refine .call ⟨rfl, rfl, rfl, rfl, rfl⟩ ?_
  exact .call rfl (.killed _ _)

theorem scans_on_disk_cutShort : ∃ scans after, Scans .fresh scans after ∧
    Shows samplePlaces cutShort.after after ∧
    List.Forall₂ (Alike toldBelow toldAbove) [cutShort] scans :=
  scans_on_disk emptyDisk_shows (.next .start cutShort rfl cutShort_valid)

end Homelab.Watchdog
