import Homelab.Effects.Execution
import Homelab.Foundation.ByteText
import Mathlib.Logic.Function.Basic

/-! # Atomic files

`atomicfile.Write` as the system calls it makes, on directory entries and the files they refer
to. Every call may fail, and one that fails changes nothing.
-/

namespace Homelab.AtomicFile

open Effects ByteText

/-- A path as `filepath.Dir` takes it apart. -/
structure Path where
  directory : Bytes
  base : Bytes
deriving DecidableEq, Repr

/-- The names that `os.CreateTemp` makes of the pattern `.homelab-*`. -/
def Path.isTemp (path : Path) : Bool := (ascii ".homelab-").isPrefixOf path.base

structure Handle where
  name : Path
  inode : Nat
deriving DecidableEq, Repr

structure File (α : Type) where
  data : List α
  mode : Nat
deriving DecidableEq, Repr

/-- Directory entries, the files, and how many files were made so far. -/
structure Disk (α : Type) where
  entries : Path → Option Nat
  files : Nat → File α
  made : Nat

inductive Operation (α : Type)
  | createTemp (directory : Bytes)
  | chmod (file : Handle) (mode : Nat)
  | write (file : Handle) (data : List α)
  | close (file : Handle)
  | rename (source target : Path)
  | remove (name : Path)

/-- `write` answers how much of the data it has written. -/
abbrev Answer {α : Type} : Operation α → Type
  | .createTemp _ => Except String Handle
  | .write _ _ => Except String Nat
  | _ => Except String Unit

abbrev interface (α : Type) : Interface := ⟨Operation α, Answer⟩

abbrev Go (α β : Type) := Program (interface α) β

variable {α : Type}

def createTemp (directory : Bytes) : Go α (Except String Handle) :=
  .call (Operation.createTemp directory) .done
def chmod (file : Handle) (mode : Nat) : Go α (Except String Unit) :=
  .call (Operation.chmod file mode) .done
def close (file : Handle) : Go α (Except String Unit) := .call (Operation.close file) .done
def rename (source target : Path) : Go α (Except String Unit) :=
  .call (Operation.rename source target) .done
def remove (name : Path) : Go α (Except String Unit) := .call (Operation.remove name) .done

def writeAll (file : Handle) (data : List α) : Go α (Except String Unit) :=
  .call (Operation.write file data) fun answer : Except String Nat =>
    match answer with
    | .error message => .done (.error message)
    | .ok count =>
        if data.length ≤ count then .done (.ok ())
        else if count = 0 then .done (.error "unexpected EOF")
        else writeAll file (data.drop count)
termination_by data.length

/-- The deferred `os.Remove`. -/
def tidy (file : Handle) (outcome : Except String Unit) : Go α (Except String Unit) := do
  let _ ← remove file.name
  pure outcome

/-- The deferred `f.Close` of a file that is still open, and the removal. -/
def abandon (file : Handle) (message : String) : Go α (Except String Unit) := do
  let _ ← close file
  tidy file (.error message)

/-- The end of `Write`, once everything is written. -/
def publish (file : Handle) (path : Path) : Go α (Except String Unit) := do
  match ← close file with
  | .error message => tidy file (.error message)
  | .ok _ =>
      let outcome ← rename file.name path
      tidy file outcome

def conclude (file : Handle) (path : Path) : Except String Unit → Go α (Except String Unit)
  | .error message => abandon file message
  | .ok _ => publish file path

def write (path : Path) (data : List α) (mode : Nat) : Go α (Except String Unit) := do
  match ← createTemp path.directory with
  | .error message => pure (.error message)
  | .ok file =>
      match ← chmod file mode with
      | .error message => abandon file message
      | .ok _ => writeAll file data >>= conclude file path

/-! ## The disk -/

namespace Disk

def read (disk : Disk α) (path : Path) : Option (File α) := (disk.entries path).map disk.files

def create (disk : Disk α) (name : Path) : Disk α where
  entries := Function.update disk.entries name (some disk.made)
  files := Function.update disk.files disk.made ⟨[], 0o600⟩
  made := disk.made + 1

def setMode (disk : Disk α) (inode mode : Nat) : Disk α :=
  { disk with files := Function.update disk.files inode { disk.files inode with mode } }

def append (disk : Disk α) (inode : Nat) (data : List α) : Disk α :=
  { disk with
    files := Function.update disk.files inode
      { disk.files inode with data := (disk.files inode).data ++ data } }

def link (disk : Disk α) (source target : Path) : Disk α :=
  { disk with
    entries := Function.update (Function.update disk.entries source none) target
      (disk.entries source) }

def unlink (disk : Disk α) (name : Path) : Disk α :=
  { disk with entries := Function.update disk.entries name none }

section

variable (disk : Disk α) (name path target : Path) (inode other mode : Nat) (data : List α)

@[simp] theorem create_entries : (disk.create name).entries path =
    if path = name then some disk.made else disk.entries path := Function.update_apply _ _ _ _

@[simp] theorem create_files : (disk.create name).files inode =
    if inode = disk.made then ⟨[], 0o600⟩ else disk.files inode := Function.update_apply _ _ _ _

@[simp] theorem create_made : (disk.create name).made = disk.made + 1 := rfl

@[simp] theorem setMode_entries : (disk.setMode inode mode).entries = disk.entries := rfl

@[simp] theorem setMode_files : (disk.setMode inode mode).files other =
    if other = inode then { disk.files inode with mode } else disk.files other :=
  Function.update_apply _ _ _ _

@[simp] theorem setMode_made : (disk.setMode inode mode).made = disk.made := rfl

@[simp] theorem append_entries : (disk.append inode data).entries = disk.entries := rfl

@[simp] theorem append_files : (disk.append inode data).files other =
    if other = inode then { disk.files inode with data := (disk.files inode).data ++ data }
    else disk.files other := Function.update_apply _ _ _ _

@[simp] theorem append_made : (disk.append inode data).made = disk.made := rfl

@[simp] theorem link_entries : (disk.link name target).entries path =
    if path = target then disk.entries name
    else if path = name then none else disk.entries path := by
  simp only [link, Function.update_apply]

@[simp] theorem link_files : (disk.link name target).files = disk.files := rfl

@[simp] theorem link_made : (disk.link name target).made = disk.made := rfl

@[simp] theorem unlink_entries : (disk.unlink name).entries path =
    if path = name then none else disk.entries path := Function.update_apply _ _ _ _

@[simp] theorem unlink_files : (disk.unlink name).files = disk.files := rfl

@[simp] theorem unlink_made : (disk.unlink name).made = disk.made := rfl

end

/-- No entry refers to a file that is still to be made. -/
def Sound (disk : Disk α) : Prop :=
  ∀ path inode, disk.entries path = some inode → inode < disk.made

end Disk

/-- The name of a new file is made of the pattern and not taken. A renamed file replaces what
was there. -/
def system : System (interface α) (Disk α) where
  Step disk operation answer after :=
    match operation, answer with
    | .createTemp directory, (answer : Except String Handle) =>
        match answer with
        | .ok file =>
            file.name.directory = directory ∧ file.name.isTemp = true ∧
              disk.entries file.name = none ∧ file.inode = disk.made ∧
              after = disk.create file.name
        | .error _ => after = disk
    | .chmod file mode, (answer : Except String Unit) =>
        match answer with
        | .ok _ => after = disk.setMode file.inode mode
        | .error _ => after = disk
    | .write file data, (answer : Except String Nat) =>
        match answer with
        | .ok count => count ≤ data.length ∧ after = disk.append file.inode (data.take count)
        | .error _ => after = disk
    | .close _, _ => after = disk
    | .rename source target, (answer : Except String Unit) =>
        match answer with
        | .ok _ => (disk.entries source).isSome = true ∧ after = disk.link source target
        | .error _ => after = disk
    | .remove name, (answer : Except String Unit) =>
        match answer with
        | .ok _ => (disk.entries name).isSome = true ∧ after = disk.unlink name
        | .error _ => after = disk

end Homelab.AtomicFile
