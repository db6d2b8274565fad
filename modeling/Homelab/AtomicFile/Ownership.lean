import Homelab.AtomicFile.Write
import Homelab.Effects.Interleaving
import Mathlib.Data.List.Lattice

/-! # Who has which file

Any number of processes write files at the same time, each with `atomicfile.Write`. What each of
them has for itself is a temporary file, from when it is created until it is renamed or removed.
-/

namespace Homelab.AtomicFile

open Effects

variable {α Process : Type}

/-- A call of `Write`. -/
structure Job (α : Type) where
  path : Path
  data : List α
  mode : Nat

def Job.program (job : Job α) : Go α (Except String Unit) := write job.path job.data job.mode

def Job.file (job : Job α) : File α := ⟨job.data, job.mode⟩

abbrev Turns (α Process : Type) := List (Turn (interface α) (Disk α) Process)

/-- The name of a temporary file that was handed out in this turn. -/
def handedOut (turn : Turn (interface α) (Disk α) Process) : Option Path :=
  match turn.moment.operation, turn.moment.answer with
  | .createTemp _, (answer : Except String Handle) =>
      match answer with
      | .ok file => some file.name
      | .error _ => none
  | _, _ => none

/-- A file was renamed in this turn. -/
def renames (turn : Turn (interface α) (Disk α) Process) : Bool :=
  match turn.moment.operation, turn.moment.answer with
  | .rename _ _, (answer : Except String Unit) => answer.isOk
  | _, _ => false

def spared (turn : Turn (interface α) (Disk α) Process) : Option Path :=
  match turn.moment.operation, turn.moment.answer with
  | .remove name, (answer : Except String Unit) =>
      match answer with
      | .ok _ => none
      | .error _ => some name
  | _, _ => none

def removes (turn : Turn (interface α) (Disk α) Process) : Bool :=
  match turn.moment.operation with
  | .remove _ => true
  | _ => false

/-- The processes whose files were renamed, in that order. -/
def commits (turns : Turns α Process) : List Process :=
  (turns.filter renames).map fun turn => turn.process

def writer (jobs : Process → Job α) (turns : Turns α Process) (path : Path) : Option Process :=
  (commits turns).reverse.find? fun process => decide ((jobs process).path = path)

/-- What is to be found under a path: what the last one has committed there. -/
def expected (jobs : Process → Job α) (start : Disk α) (turns : Turns α Process) (path : Path) :
    Option (File α) :=
  match writer jobs turns path with
  | none => start.read path
  | some process => some (jobs process).file

section Turns

variable {turns : Turns α Process} {turn : Turn (interface α) (Disk α) Process}
  {process : Process} {jobs : Process → Job α} {start : Disk α} {path : Path}

theorem commits_snoc : commits (turns ++ [turn]) =
    commits turns ++ if renames turn then [turn.process] else [] := by
  rw [commits, commits, List.filter_append, List.map_append]
  congr 1
  cases found : renames turn <;> simp [found]

theorem commits_quiet (quiet : renames turn = false) :
    commits (turns ++ [turn]) = commits turns := by
  rw [commits_snoc, quiet]
  exact List.append_nil _

theorem expected_quiet (quiet : renames turn = false) :
    expected jobs start (turns ++ [turn]) path = expected jobs start turns path := by
  rw [expected, expected, writer, writer, commits_quiet quiet]

theorem expected_renames (renamed : renames turn = true) :
    expected jobs start (turns ++ [turn]) path =
      if (jobs turn.process).path = path then some (jobs turn.process).file
      else expected jobs start turns path := by
  rw [expected, writer, commits_snoc, if_pos renamed, List.reverse_append, List.reverse_singleton,
    List.singleton_append, List.find?_cons]
  by_cases same : (jobs turn.process).path = path
  · simp [same]
  · simp [same, expected, writer]

variable {other : Process}

theorem mem_commits_snoc_of_ne (different : other ≠ turn.process) :
    other ∈ commits (turns ++ [turn]) ↔ other ∈ commits turns := by
  rw [commits_snoc, List.mem_append]
  cases renames turn <;> simp [different]

end Turns

/-! ## Claims -/

/-- What a process has for itself: nothing, a temporary file, or only the name that it had. -/
inductive Claim
  | nothing
  | file (file : Handle)
  | name (name : Path)

def Claim.names : Claim → List Path
  | .nothing => []
  | .file own => [own.name]
  | .name own => [own]

def Claim.inodes : Claim → List Nat
  | .file own => [own.inode]
  | _ => []

structure Claim.Apart (claim other : Claim) : Prop where
  names : claim.names.Disjoint other.names
  inodes : claim.inodes.Disjoint other.inodes

/-- The file is there under its temporary name, and under no other. -/
structure Owned (disk : Disk α) (file : Handle) (content : File α) : Prop where
  temp : file.name.isTemp = true
  entry : disk.entries file.name = some file.inode
  sole : ∀ path, disk.entries path = some file.inode → path = file.name
  content : disk.files file.inode = content

/-- Everything but this file, and the entries that are not temporary, is as it was. -/
structure Touches (file : Handle) (disk after : Disk α) : Prop where
  entries : ∀ path, path.isTemp = true → path ≠ file.name →
    after.entries path = disk.entries path
  points : ∀ path inode, inode ≠ file.inode → after.entries path = some inode →
    disk.entries path = some inode
  files : ∀ inode, inode ≠ file.inode → after.files inode = disk.files inode

section Touching

variable {disk after : Disk α} {file other : Handle} {content : File α} {path target : Path}

theorem Owned.touched (owned : Owned disk other content) (touches : Touches file disk after)
    (name : other.name ≠ file.name) (inode : other.inode ≠ file.inode) :
    Owned after other content where
  temp := owned.temp
  entry := (touches.entries _ owned.temp name).trans owned.entry
  sole path found := owned.sole path (touches.points path _ inode found)
  content := (touches.files _ inode).trans owned.content

theorem Touches.refl (file : Handle) (disk : Disk α) : Touches file disk disk :=
  ⟨fun _ _ _ => rfl, fun _ _ _ found => found, fun _ _ => rfl⟩

theorem touches_create (made : file.inode = disk.made) :
    Touches file disk (disk.create file.name) where
  entries path _ different := by simp [different]
  points path inode different found := by
    rw [Disk.create_entries] at found
    split at found
    · exact absurd (made.trans (Option.some.inj found)).symm different
    · exact found
  files inode different := by simp [made ▸ different]

theorem touches_setMode {mode : Nat} : Touches file disk (disk.setMode file.inode mode) where
  entries _ _ _ := rfl
  points _ _ _ found := found
  files _ different := by simp [different]

theorem touches_append {data : List α} : Touches file disk (disk.append file.inode data) where
  entries _ _ _ := rfl
  points _ _ _ found := found
  files _ different := by simp [different]

theorem touches_link (owned : Owned disk file content) (plain : target.isTemp = false) :
    Touches file disk (disk.link file.name target) where
  entries path temp different := by
    have apart : path ≠ target := fun same => by
      rw [same, plain] at temp
      cases temp
    rw [Disk.link_entries, if_neg apart, if_neg different]
  points path inode different found := by
    rw [Disk.link_entries, owned.entry] at found
    split at found
    · exact absurd (Option.some.inj found).symm different
    · split at found
      · cases found
      · exact found
  files _ _ := rfl

theorem touches_unlink : Touches file disk (disk.unlink file.name) where
  entries _ _ different := by simp [different]
  points path inode _ found := by
    rw [Disk.unlink_entries] at found
    split at found
    · cases found
    · exact found
  files _ _ := rfl

/-! ## What is read -/

theorem Owned.made (owned : Owned disk file content) (sound : disk.Sound) :
    file.inode < disk.made := sound _ _ owned.entry

theorem Owned.plain_ne (owned : Owned disk file content) (plain : path.isTemp = false) :
    path ≠ file.name := by
  intro same
  rw [same, owned.temp] at plain
  cases plain

/-- A file that is under no plain path can be changed without notice. -/
theorem read_files (entries : after.entries path = disk.entries path)
    (files : ∀ inode, disk.entries path = some inode → after.files inode = disk.files inode) :
    after.read path = disk.read path := by
  rw [Disk.read, Disk.read, entries]
  cases found : disk.entries path with
  | none => rfl
  | some inode => exact congrArg some (files inode found)

theorem Owned.read_touched (owned : Owned disk file content) (touches : Touches file disk after)
    (plain : path.isTemp = false) (entries : after.entries path = disk.entries path) :
    after.read path = disk.read path := by
  refine read_files entries fun inode found => touches.files inode fun same => ?_
  rw [same] at found
  exact owned.plain_ne plain (owned.sole path found)

end Touching

/-! ## Names -/

variable [DecidableEq Process]

/-- The temporary name that each process has and has not come to remove yet. -/
def held (turns : Turns α Process) : Process → Option Path :=
  turns.foldl (fun names turn =>
    if (handedOut turn).isSome || removes turn then
      Function.update names turn.process (handedOut turn)
    else names) fun _ => none

/-- Nobody is handed a name that another process is still to remove: `os.CreateTemp` draws the
names at random. -/
def Fresh (turns : Turns α Process) : Prop :=
  ∀ index (inside : index < turns.length) process, process ≠ turns[index].process →
    handedOut turns[index] = none ∨ held (turns.take index) process ≠ handedOut turns[index]

section Names

variable {turns : Turns α Process} {turn : Turn (interface α) (Disk α) Process}
  {process : Process}

theorem held_snoc : held (turns ++ [turn]) =
    if (handedOut turn).isSome || removes turn then
      Function.update (held turns) turn.process (handedOut turn)
    else held turns := by
  rw [held, held, List.foldl_append]
  rfl

theorem held_snoc_of_ne (different : process ≠ turn.process) :
    held (turns ++ [turn]) process = held turns process := by
  rw [held_snoc]
  split
  · exact Function.update_of_ne different _ _
  · rfl

theorem held_created {name : Path} (handed : handedOut turn = some name) :
    held (turns ++ [turn]) turn.process = some name := by
  rw [held_snoc, handed]
  exact Function.update_self _ _ _

theorem held_removed (unhanded : handedOut turn = none) (removed : removes turn = true) :
    held (turns ++ [turn]) turn.process = none := by
  rw [held_snoc, unhanded, removed]
  exact Function.update_self _ _ _

theorem held_quiet (unhanded : handedOut turn = none) (stays : removes turn = false) :
    held (turns ++ [turn]) = held turns := by
  rw [held_snoc, unhanded, stays]
  rfl

theorem Fresh.earlier (fresh : Fresh (turns ++ [turn])) : Fresh turns := by
  intro index inside process different
  have inside' : index < (turns ++ [turn]).length := by
    rw [List.length_append]
    omega
  have same : (turns ++ [turn])[index] = turns[index] := List.getElem_append_left inside
  have before : (turns ++ [turn]).take index = turns.take index :=
    List.take_append_of_le_length inside.le
  have found := fresh index inside' process
  rw [same, before] at found
  exact found different

theorem Fresh.unused {name : Path} (fresh : Fresh (turns ++ [turn]))
    (handed : handedOut turn = some name) (different : process ≠ turn.process) :
    held turns process ≠ some name := by
  have inside : turns.length < (turns ++ [turn]).length := by simp
  have last : (turns ++ [turn])[turns.length] = turn := by simp
  have before : (turns ++ [turn]).take turns.length = turns := List.take_left
  have found := fresh turns.length inside process
  rw [last, before, handed] at found
  exact (found different).resolve_left (Option.some_ne_none _)

end Names

/-! ## Stages -/

/-- `Write` after the file was created. -/
def Job.fill (job : Job α) (file : Handle) : Go α (Except String Unit) := do
  match ← chmod file job.mode with
  | .error message => abandon file message
  | .ok _ => writeAll file job.data >>= conclude file job.path

/-- How far a job has come, and what its process has of the disk by then. -/
inductive Phase (job : Job α) (disk : Disk α) (committed : Prop) (claim : Claim)
    (program : Go α (Except String Unit)) : Prop
  | waiting (left : program = job.program) (claimed : claim = .nothing) (yet : ¬committed)
  | refused (message : String) (left : program = .done (.error message))
      (claimed : claim = .nothing) (yet : ¬committed)
  | created (file : Handle) (left : program = job.fill file) (claimed : claim = .file file)
      (owned : Owned disk file ⟨[], 0o600⟩) (yet : ¬committed)
  | writing (file : Handle) (front rest : List α)
      (left : program = writeAll file rest >>= conclude file job.path)
      (claimed : claim = .file file) (owned : Owned disk file ⟨front, job.mode⟩)
      (whole : front ++ rest = job.data) (yet : ¬committed)
  | closing (file : Handle) (left : program = publish file job.path)
      (claimed : claim = .file file) (owned : Owned disk file job.file) (yet : ¬committed)
  | committing (file : Handle) (left : program = rename file.name job.path >>= tidy file)
      (claimed : claim = .file file) (owned : Owned disk file job.file) (yet : ¬committed)
  | renamed (file : Handle) (left : program = tidy file (.ok ()))
      (claimed : claim = .name file.name) (temp : file.name.isTemp = true)
      (gone : disk.entries file.name = none) (done : committed)
  | abandoning (file : Handle) (message : String) (content : File α)
      (left : program = abandon file message) (claimed : claim = .file file)
      (owned : Owned disk file content) (yet : ¬committed)
  | failing (file : Handle) (message : String) (content : File α)
      (left : program = tidy file (.error message)) (claimed : claim = .file file)
      (owned : Owned disk file content) (yet : ¬committed)
  | returned (outcome : Except String Unit) (left : program = .done outcome)
      (claimed : claim = .nothing) (agree : outcome = .ok () ↔ committed)

structure Frame (held : Claim) (disk after : Disk α) : Prop where
  owned : ∀ file content, held = .file file → Owned disk file content → Owned after file content
  gone : ∀ name, held = .name name → name.isTemp = true → disk.entries name = none →
    after.entries name = none

theorem Frame.refl (held : Claim) (disk : Disk α) : Frame held disk disk :=
  ⟨fun _ _ _ owned => owned, fun _ _ _ gone => gone⟩

theorem Touches.frame {file : Handle} {held : Claim} {disk after : Disk α}
    (touches : Touches file disk after) (name : file.name ∉ held.names)
    (inode : file.inode ∉ held.inodes) : Frame held disk after where
  owned own content same owned := by
    rw [same] at name inode
    exact owned.touched touches (fun equal => name (by simp [Claim.names, equal]))
      (fun equal => inode (by simp [Claim.inodes, equal]))
  gone own same temp gone := by
    rw [same] at name
    rw [touches.entries own temp fun equal => name (by simp [Claim.names, equal])]
    exact gone

theorem Phase.made {job : Job α} {disk : Disk α} {committed : Prop} {claim : Claim}
    {program : Go α (Except String Unit)} (phase : Phase job disk committed claim program)
    (sound : disk.Sound) {inode : Nat} (member : inode ∈ claim.inodes) : inode < disk.made := by
  have owned {file : Handle} {content : File α} (claimed : claim = .file file)
      (owned : Owned disk file content) : inode < disk.made := by
    rw [claimed] at member
    rw [List.mem_singleton.mp member]
    exact owned.made sound
  have unowned (claimed : claim.inodes = []) : inode < disk.made := by
    rw [claimed] at member
    cases member
  cases phase with
  | waiting _ claimed => exact unowned (claimed ▸ rfl)
  | refused _ _ claimed => exact unowned (claimed ▸ rfl)
  | created _ _ claimed own => exact owned claimed own
  | writing _ _ _ _ claimed own => exact owned claimed own
  | closing _ _ claimed own => exact owned claimed own
  | committing _ _ claimed own => exact owned claimed own
  | renamed _ _ claimed => exact unowned (claimed ▸ rfl)
  | abandoning _ _ _ _ claimed own => exact owned claimed own
  | failing _ _ _ _ claimed own => exact owned claimed own
  | returned _ _ claimed => exact unowned (claimed ▸ rfl)

theorem Phase.framed {job : Job α} {disk after : Disk α} {committed : Prop}
    {claim : Claim} {program : Go α (Except String Unit)}
    (phase : Phase job disk committed claim program) (frame : Frame claim disk after) :
    Phase job after committed claim program := by
  cases phase with
  | waiting left claimed yet => exact .waiting left claimed yet
  | refused message left claimed yet => exact .refused message left claimed yet
  | created file left claimed owned yet =>
      exact .created file left claimed (frame.owned _ _ claimed owned) yet
  | writing file front rest left claimed owned whole yet =>
      exact .writing file front rest left claimed (frame.owned _ _ claimed owned) whole yet
  | closing file left claimed owned yet =>
      exact .closing file left claimed (frame.owned _ _ claimed owned) yet
  | committing file left claimed owned yet =>
      exact .committing file left claimed (frame.owned _ _ claimed owned) yet
  | renamed file left claimed temp gone done =>
      exact .renamed file left claimed temp (frame.gone _ claimed temp gone) done
  | abandoning file message content left claimed owned yet =>
      exact .abandoning file message content left claimed (frame.owned _ _ claimed owned) yet
  | failing file message content left claimed owned yet =>
      exact .failing file message content left claimed (frame.owned _ _ claimed owned) yet
  | returned outcome left claimed agree => exact .returned outcome left claimed agree

end Homelab.AtomicFile
