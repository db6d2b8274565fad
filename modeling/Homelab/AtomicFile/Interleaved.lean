import Homelab.AtomicFile.Ownership
import Mathlib.Data.List.Nodup

/-! # Files that many processes write

Whoever reads a file finds the whole of what one of the processes wrote, and the writes of a file
take effect one after another.
-/

namespace Homelab.AtomicFile

open Effects ByteText

variable {α Process : Type} [DecidableEq Process]

structure Stage (jobs : Process → Job α) (process : Process) (claim : Claim)
    (program : Go α (Except String Unit)) (turns : Turns α Process) (disk : Disk α) : Prop where
  names : (held turns process).toList = claim.names
  phase : Phase (jobs process) disk (process ∈ commits turns) claim program

/-- Why there may be a temporary file of this name: it was there before, its process is still to
remove it, or could not. -/
def Accounted (start : Disk α) (turns : Turns α Process) (path : Path) : Prop :=
  (start.entries path).isSome = true ∨ (∃ process, held turns process = some path) ∨
    ∃ turn ∈ turns, spared turn = some path

structure Shared (jobs : Process → Job α) (start : Disk α) (turns : Turns α Process)
    (disk : Disk α) : Prop where
  sound : disk.Sound
  reads : ∀ path, path.isTemp = false → disk.read path = expected jobs start turns path
  once : (commits turns).Nodup
  accounted : ∀ path, path.isTemp = true → (disk.entries path).isSome = true →
    Accounted start turns path

section Moving

variable {jobs : Process → Job α} {start disk after : Disk α} {turns : Turns α Process}
  {turn : Turn (interface α) (Disk α) Process} {process other : Process} {claim own : Claim}
  {program : Go α (Except String Unit)}

/-- Whoever did not take the turn stays in its stage. -/
theorem Stage.kept (stage : Stage jobs other own program turns disk)
    (different : other ≠ turn.process) (frame : Frame own disk after) :
    Stage jobs other own program (turns ++ [turn]) after where
  names := by
    rw [held_snoc_of_ne different]
    exact stage.names
  phase := by
    rw [mem_commits_snoc_of_ne different]
    exact stage.phase.framed frame

theorem Accounted.later {path : Path} (accounted : Accounted start turns path)
    (holds : ∀ other, held turns other = some path → held (turns ++ [turn]) other = some path) :
    Accounted start (turns ++ [turn]) path := by
  rcases accounted with before | ⟨other, own⟩ | ⟨turn, listed, kept⟩
  · exact .inl before
  · exact .inr (.inl ⟨other, holds other own⟩)
  · exact .inr (.inr ⟨turn, List.mem_append_left _ listed, kept⟩)

theorem Claim.Apart.symm (apart : claim.Apart own) : own.Apart claim :=
  ⟨List.disjoint_symm apart.names, List.disjoint_symm apart.inodes⟩

structure Unnoticed (claim : Claim) (disk after : Disk α) : Prop where
  frame : ∀ own, claim.Apart own → Frame own disk after
  sound : disk.Sound → after.Sound
  reads : ∀ path, path.isTemp = false → after.read path = disk.read path
  entries : ∀ path, (after.entries path).isSome = true → (disk.entries path).isSome = true

theorem Unnoticed.refl (claim : Claim) (disk : Disk α) : Unnoticed claim disk disk :=
  ⟨fun _ _ => .refl _ _, fun sound => sound, fun _ _ => rfl, fun _ found => found⟩

theorem Owned.unnoticed {file : Handle} {content : File α} (owned : Owned disk file content)
    (touches : Touches file disk after) (made : after.made = disk.made)
    (points : ∀ path, path ≠ file.name → after.entries path = disk.entries path)
    (here : ∀ inode, after.entries file.name = some inode → inode = file.inode) :
    Unnoticed (.file file) disk after where
  frame own apart := touches.frame
    (fun member => apart.names (List.mem_singleton_self _) member)
    (fun member => apart.inodes (List.mem_singleton_self _) member)
  sound sound path inode found := by
    rw [made]
    by_cases same : path = file.name
    · rw [same] at found
      rw [here inode found]
      exact owned.made sound
    · rw [points path same] at found
      exact sound path inode found
  reads path plain := owned.read_touched touches plain (points path (owned.plain_ne plain))
  entries path found := by
    by_cases same : path = file.name
    · rw [same, owned.entry]
      rfl
    · rwa [points path same] at found

theorem Owned.unnoticed_setMode {file : Handle} {content : File α} {mode : Nat}
    (owned : Owned disk file content) :
    Unnoticed (.file file) disk (disk.setMode file.inode mode) :=
  owned.unnoticed touches_setMode rfl (fun _ _ => rfl)
    fun _ found => (Option.some.inj (owned.entry.symm.trans found)).symm

theorem Owned.unnoticed_append {file : Handle} {content : File α} {data : List α}
    (owned : Owned disk file content) :
    Unnoticed (.file file) disk (disk.append file.inode data) :=
  owned.unnoticed touches_append rfl (fun _ _ => rfl)
    fun _ found => (Option.some.inj (owned.entry.symm.trans found)).symm

theorem Owned.unnoticed_unlink {file : Handle} {content : File α}
    (owned : Owned disk file content) :
    Unnoticed (.file file) disk (disk.unlink file.name) :=
  owned.unnoticed touches_unlink rfl (fun _ different => by simp [different])
    fun _ found => by simp at found

/-- A process that neither creates nor renames a file, in a way that nobody notices. -/
theorem Stage.steady {moment : Moment (interface α) (Disk α)} {claim' : Claim}
    {program' : Go α (Except String Unit)}
    (stage : Stage jobs process claim program turns disk) (shared : Shared jobs start turns disk)
    (quiet : renames (⟨process, moment⟩ : Turn (interface α) (Disk α) Process) = false)
    (unnoticed : Unnoticed claim disk after)
    (names : (held (turns ++ [⟨process, moment⟩]) process).toList = claim'.names)
    (fewer : claim'.names ⊆ claim.names) (inodes : claim'.inodes ⊆ claim.inodes)
    (dropped : ∀ name ∈ claim.names, name ∈ claim'.names ∨ after.entries name = none ∨
      spared (⟨process, moment⟩ : Turn (interface α) (Disk α) Process) = some name)
    (phase : Phase (jobs process) after (process ∈ commits turns) claim' program') :
    Moves (Stage jobs) Claim.Apart (Shared jobs start) turns disk process claim claim'
      program' ⟨process, moment⟩ after where
  own :=
    { names := names
      phase := by
        rw [commits_quiet quiet]
        exact phase }
  shared :=
    { sound := unnoticed.sound shared.sound
      reads := fun path plain => by
        rw [expected_quiet quiet, unnoticed.reads path plain]
        exact shared.reads path plain
      once := by
        rw [commits_quiet quiet]
        exact shared.once
      accounted := by
        intro path temp found
        rcases shared.accounted path temp (unnoticed.entries path found) with
          before | ⟨other, holds⟩ | ⟨turn, listed, kept⟩
        · exact .inl before
        · by_cases same : other = process
          · rw [same] at holds
            have member : path ∈ claim.names := by
              rw [← stage.names, holds]
              exact List.mem_singleton_self _
            rcases dropped path member with still | gone | kept
            · rw [← names, Option.mem_toList] at still
              exact .inr (.inl ⟨process, still⟩)
            · rw [gone] at found
              cases found
            · exact .inr (.inr ⟨_, List.mem_append_right _ (List.mem_singleton_self _), kept⟩)
          · refine .inr (.inl ⟨other, ?_⟩)
            rw [held_snoc_of_ne same]
            exact holds
        · exact .inr (.inr ⟨turn, List.mem_append_left _ listed, kept⟩) }
  others other own program different apart apart' kept := by
    have apart_ : claim'.Apart own :=
      ⟨fun name member => apart.names (fewer member),
        fun inode member => apart.inodes (inodes member)⟩
    exact ⟨kept.kept different (unnoticed.frame own apart), apart_, apart_.symm⟩

/-- A turn in between. -/
theorem Stage.stays {moment : Moment (interface α) (Disk α)}
    {program' : Go α (Except String Unit)}
    (stage : Stage jobs process claim program turns disk) (shared : Shared jobs start turns disk)
    (unhanded : handedOut (⟨process, moment⟩ : Turn (interface α) (Disk α) Process) = none)
    (quiet : renames (⟨process, moment⟩ : Turn (interface α) (Disk α) Process) = false)
    (still : removes (⟨process, moment⟩ : Turn (interface α) (Disk α) Process) = false)
    (unnoticed : Unnoticed claim disk after)
    (phase : Phase (jobs process) after (process ∈ commits turns) claim program') :
    Moves (Stage jobs) Claim.Apart (Shared jobs start) turns disk process claim claim
      program' ⟨process, moment⟩ after := by
  have names : (held (turns ++ [⟨process, moment⟩]) process).toList = claim.names := by
    rw [held_quiet unhanded still]
    exact stage.names
  exact stage.steady shared quiet unnoticed names (List.Subset.refl _) (List.Subset.refl _)
    (fun _ member => .inl member) phase

/-- A turn that leaves the disk as it is. -/
theorem Stage.idle {moment : Moment (interface α) (Disk α)}
    {program' : Go α (Except String Unit)}
    (stage : Stage jobs process claim program turns disk) (shared : Shared jobs start turns disk)
    (unhanded : handedOut (⟨process, moment⟩ : Turn (interface α) (Disk α) Process) = none)
    (quiet : renames (⟨process, moment⟩ : Turn (interface α) (Disk α) Process) = false)
    (still : removes (⟨process, moment⟩ : Turn (interface α) (Disk α) Process) = false)
    (same : after = disk)
    (phase : Phase (jobs process) disk (process ∈ commits turns) claim program') :
    Moves (Stage jobs) Claim.Apart (Shared jobs start) turns disk process claim claim
      program' ⟨process, moment⟩ after := by
  subst same
  exact stage.stays shared unhanded quiet still (.refl _ _) phase

/-- The last turn. -/
theorem Stage.ends {moment : Moment (interface α) (Disk α)} {name : Path}
    {outcome : Except String Unit} (stage : Stage jobs process claim program turns disk)
    (shared : Shared jobs start turns disk) (claimed : claim.names = [name])
    (unhanded : handedOut (⟨process, moment⟩ : Turn (interface α) (Disk α) Process) = none)
    (quiet : renames (⟨process, moment⟩ : Turn (interface α) (Disk α) Process) = false)
    (last : removes (⟨process, moment⟩ : Turn (interface α) (Disk α) Process) = true)
    (unnoticed : Unnoticed claim disk after)
    (gone : after.entries name = none ∨
      spared (⟨process, moment⟩ : Turn (interface α) (Disk α) Process) = some name)
    (agree : outcome = .ok () ↔ process ∈ commits turns) :
    Moves (Stage jobs) Claim.Apart (Shared jobs start) turns disk process claim .nothing
      (.done outcome) ⟨process, moment⟩ after := by
  have names : (held (turns ++ [⟨process, moment⟩]) process).toList = Claim.nothing.names := by
    have removed : held (turns ++ [⟨process, moment⟩]) process = none :=
      held_removed unhanded last
    rw [removed]
    rfl
  refine stage.steady shared quiet unnoticed names (List.nil_subset _) (List.nil_subset _) ?_
    (.returned outcome rfl rfl agree)
  intro own member
  rw [claimed] at member
  rw [List.mem_singleton.mp member]
  exact .inr gone

end Moving

/-! ## One turn of each phase -/

section Phases

variable {jobs : Process → Job α} {start disk after : Disk α} {turns : Turns α Process}
  {process : Process} {claim : Claim} {operation : Operation α}
  {next : Answer operation → Go α (Except String Unit)} {answer : Answer operation}

abbrev Taken (jobs : Process → Job α) (start : Disk α) (turns : Turns α Process) (disk : Disk α)
    (process : Process) (claim : Claim) (operation : Operation α) (answer : Answer operation)
    (left : Go α (Except String Unit)) (after : Disk α) : Prop :=
  ∃ claim', Moves (Stage jobs) Claim.Apart (Shared jobs start) turns disk process claim claim'
    left ⟨process, (⟨disk, operation, answer, after⟩ : Moment (interface α) (Disk α))⟩ after

theorem taken_created {file : Handle}
    (stage : Stage jobs process claim (.call operation next) turns disk)
    (shared : Shared jobs start turns disk)
    (left : Program.call operation next = (jobs process).fill file) (claimed : claim = .file file)
    (owned : Owned disk file ⟨[], 0o600⟩) (yet : process ∉ commits turns)
    (step : system.Step disk operation answer after) :
    Taken jobs start turns disk process claim operation answer (next answer) after := by
  subst claimed
  cases left
  match answer, step with
  | .error message, step =>
      exact ⟨.file file, stage.idle shared rfl rfl rfl step
        (.abandoning file message _ rfl rfl owned yet)⟩
  | .ok _, step =>
      have set : after = disk.setMode file.inode (jobs process).mode := step
      subst set
      have owned' : Owned (disk.setMode file.inode (jobs process).mode) file
          ⟨[], (jobs process).mode⟩ :=
        ⟨owned.temp, owned.entry, owned.sole, by simp [owned.content]⟩
      exact ⟨.file file, stage.stays shared rfl rfl rfl owned.unnoticed_setMode
        (.writing file [] _ rfl rfl owned' rfl yet)⟩

theorem writeAll_bind (file : Handle) (data : List α) (path : Path) :
    (writeAll file data >>= conclude file path) =
      .call (Operation.write file data) fun answer : Except String Nat =>
        (match answer with
          | .error message => .done (.error message)
          | .ok count =>
              if data.length ≤ count then .done (.ok ())
              else if count = 0 then .done (.error "unexpected EOF")
              else writeAll file (data.drop count)) >>= conclude file path := by
  rw [writeAll]
  rfl

theorem taken_writing {file : Handle} {front rest : List α}
    (stage : Stage jobs process claim (.call operation next) turns disk)
    (shared : Shared jobs start turns disk)
    (left : Program.call operation next =
      writeAll file rest >>= conclude file (jobs process).path)
    (claimed : claim = .file file) (owned : Owned disk file ⟨front, (jobs process).mode⟩)
    (whole : front ++ rest = (jobs process).data) (yet : process ∉ commits turns)
    (step : system.Step disk operation answer after) :
    Taken jobs start turns disk process claim operation answer (next answer) after := by
  subst claimed
  rw [writeAll_bind] at left
  cases left
  match answer, step with
  | .error message, step =>
      exact ⟨.file file, stage.idle shared rfl rfl rfl step
        (.abandoning file message _ rfl rfl owned yet)⟩
  | .ok count, step =>
      obtain ⟨bound, appended⟩ :
        count ≤ rest.length ∧ after = disk.append file.inode (rest.take count) := step
      subst appended
      have owned' : Owned (disk.append file.inode (rest.take count)) file
          ⟨front ++ rest.take count, (jobs process).mode⟩ :=
        ⟨owned.temp, owned.entry, owned.sole, by simp [owned.content]⟩
      refine ⟨.file file, stage.stays shared rfl rfl rfl owned.unnoticed_append ?_⟩
      by_cases all : rest.length ≤ count
      · simp only [if_pos all]
        have written : front ++ rest.take count = (jobs process).data := by
          rw [List.take_of_length_le all, whole]
        rw [written] at owned'
        exact .closing file rfl rfl owned' yet
      · simp only [if_neg all]
        by_cases none : count = 0
        · rw [if_pos none]
          exact .abandoning file _ _ rfl rfl owned' yet
        · rw [if_neg none]
          refine .writing file _ _ rfl rfl owned' ?_ yet
          rw [List.append_assoc, List.take_append_drop, whole]

theorem taken_closing {file : Handle}
    (stage : Stage jobs process claim (.call operation next) turns disk)
    (shared : Shared jobs start turns disk)
    (left : Program.call operation next = publish file (jobs process).path)
    (claimed : claim = .file file) (owned : Owned disk file (jobs process).file)
    (yet : process ∉ commits turns) (step : system.Step disk operation answer after) :
    Taken jobs start turns disk process claim operation answer (next answer) after := by
  subst claimed
  cases left
  match answer, step with
  | .error message, step =>
      exact ⟨.file file, stage.idle shared rfl rfl rfl step
        (.failing file message _ rfl rfl owned yet)⟩
  | .ok _, step =>
      exact ⟨.file file, stage.idle shared rfl rfl rfl step (.committing file rfl rfl owned yet)⟩

theorem taken_abandoning {file : Handle} {message : String} {content : File α}
    (stage : Stage jobs process claim (.call operation next) turns disk)
    (shared : Shared jobs start turns disk)
    (left : Program.call operation next = abandon file message)
    (claimed : claim = .file file) (owned : Owned disk file content)
    (yet : process ∉ commits turns) (step : system.Step disk operation answer after) :
    Taken jobs start turns disk process claim operation answer (next answer) after := by
  subst claimed
  cases left
  exact ⟨.file file, stage.idle shared rfl rfl rfl step
    (.failing file message _ rfl rfl owned yet)⟩

theorem taken_failing {file : Handle} {message : String} {content : File α}
    (stage : Stage jobs process claim (.call operation next) turns disk)
    (shared : Shared jobs start turns disk)
    (left : Program.call operation next = tidy file (.error message))
    (claimed : claim = .file file) (owned : Owned disk file content)
    (yet : process ∉ commits turns) (step : system.Step disk operation answer after) :
    Taken jobs start turns disk process claim operation answer (next answer) after := by
  subst claimed
  cases left
  match answer, step with
  | .error _, step =>
      have same : after = disk := step
      subst same
      exact ⟨.nothing, stage.ends shared rfl rfl rfl rfl (.refl _ _) (.inr rfl) (by simp [yet])⟩
  | .ok _, step =>
      obtain ⟨_, removed⟩ :
        (disk.entries file.name).isSome = true ∧ after = disk.unlink file.name := step
      subst removed
      exact ⟨.nothing, stage.ends shared rfl rfl rfl rfl owned.unnoticed_unlink
        (.inl (by simp)) (by simp [yet])⟩

theorem taken_renamed {file : Handle}
    (stage : Stage jobs process claim (.call operation next) turns disk)
    (shared : Shared jobs start turns disk)
    (left : Program.call operation next = tidy file (.ok ()))
    (claimed : claim = .name file.name) (gone : disk.entries file.name = none)
    (done : process ∈ commits turns)
    (step : system.Step disk operation answer after) :
    Taken jobs start turns disk process claim operation answer (next answer) after := by
  subst claimed
  cases left
  match answer, step with
  | .error _, step =>
      have same : after = disk := step
      subst same
      exact ⟨.nothing, stage.ends shared rfl rfl rfl rfl (.refl _ _) (.inl gone) (by simp [done])⟩
  | .ok _, step =>
      obtain ⟨there, _⟩ :
        (disk.entries file.name).isSome = true ∧ after = disk.unlink file.name := step
      rw [gone] at there
      cases there

theorem link_sound {file : Handle} {content : File α} {target : Path}
    (owned : Owned disk file content) (sound : disk.Sound) :
    (disk.link file.name target).Sound := by
  intro path inode found
  rw [Disk.link_entries, owned.entry] at found
  split at found
  · rw [← Option.some.inj found]
    exact owned.made sound
  · split at found
    · cases found
    · exact sound path inode found

theorem link_read {file : Handle} {content : File α} {path target : Path}
    (owned : Owned disk file content) (plain : path.isTemp = false) :
    (disk.link file.name target).read path =
      if target = path then some content else disk.read path := by
  rw [Disk.read, Disk.link_entries, owned.entry, if_neg (owned.plain_ne plain)]
  by_cases same : target = path
  · rw [if_pos same.symm, if_pos same]
    exact congrArg some owned.content
  · rw [if_neg (Ne.symm same), if_neg same]
    rfl

theorem taken_committing {file : Handle}
    (stage : Stage jobs process claim (.call operation next) turns disk)
    (shared : Shared jobs start turns disk) (plain : (jobs process).path.isTemp = false)
    (left : Program.call operation next = rename file.name (jobs process).path >>= tidy file)
    (claimed : claim = .file file) (owned : Owned disk file (jobs process).file)
    (yet : process ∉ commits turns) (step : system.Step disk operation answer after) :
    Taken jobs start turns disk process claim operation answer (next answer) after := by
  subst claimed
  cases left
  match answer, step with
  | .error message, step =>
      exact ⟨.file file, stage.idle shared rfl rfl rfl step
        (.failing file message _ rfl rfl owned yet)⟩
  | .ok _, step =>
      obtain ⟨_, linked⟩ : (disk.entries file.name).isSome = true ∧
        after = disk.link file.name (jobs process).path := step
      subst linked
      refine ⟨.name file.name, ⟨?_, ?_⟩, ⟨link_sound owned shared.sound, ?_, ?_, ?_⟩, ?_⟩
      · rw [held_quiet rfl rfl]
        exact stage.names
      · refine .renamed file rfl rfl owned.temp ?_ ?_
        · rw [Disk.link_entries, if_neg (owned.plain_ne plain).symm, if_pos rfl]
        · rw [commits_snoc]
          exact List.mem_append_right _ (List.mem_singleton_self _)
      · intro path plain
        rw [expected_renames rfl, link_read owned plain, shared.reads path plain]
      · rw [commits_snoc]
        exact List.Nodup.append shared.once (List.nodup_singleton _)
          (List.disjoint_singleton.mpr yet)
      · intro path temp found
        rw [Disk.link_entries] at found
        split at found
        case isTrue same =>
          rw [same, plain] at temp
          cases temp
        split at found
        · cases found
        exact (shared.accounted path temp found).later fun other holds =>
          (congrFun (held_quiet rfl rfl) other).trans holds
      · intro other own program different apart apart' kept
        have name : file.name ∉ own.names := fun member =>
          apart.names (List.mem_singleton_self _) member
        have inode : file.inode ∉ own.inodes := fun member =>
          apart.inodes (List.mem_singleton_self _) member
        have apart_ : (Claim.name file.name).Apart own :=
          ⟨apart.names, List.disjoint_nil_left _⟩
        exact ⟨kept.kept different ((touches_link owned plain).frame name inode), apart_,
          apart_.symm⟩

theorem create_sound {name : Path} (sound : disk.Sound) : (disk.create name).Sound := by
  intro path inode found
  rw [Disk.create_entries] at found
  rw [Disk.create_made]
  split at found
  · rw [← Option.some.inj found]
    exact Nat.lt_succ_self _
  · exact Nat.lt_succ_of_lt (sound path inode found)

theorem create_read {name path : Path} (sound : disk.Sound) (different : path ≠ name) :
    (disk.create name).read path = disk.read path := by
  refine read_files (by simp [different]) fun inode found => ?_
  simp [(sound path inode found).ne]

theorem create_owned {file : Handle} (sound : disk.Sound) (temp : file.name.isTemp = true)
    (made : file.inode = disk.made) : Owned (disk.create file.name) file ⟨[], 0o600⟩ where
  temp := temp
  entry := by simp [made]
  sole path found := by
    by_contra different
    rw [Disk.create_entries, if_neg different] at found
    exact absurd made (sound path _ found).ne
  content := by simp [made]

theorem taken_waiting
    (stage : Stage jobs process claim (.call operation next) turns disk)
    (shared : Shared jobs start turns disk)
    (left : Program.call operation next = (jobs process).program) (claimed : claim = .nothing)
    (yet : process ∉ commits turns)
    (fresh : Fresh (turns ++
      [⟨process, (⟨disk, operation, answer, after⟩ : Moment (interface α) (Disk α))⟩]))
    (step : system.Step disk operation answer after) :
    Taken jobs start turns disk process claim operation answer (next answer) after := by
  subst claimed
  cases left
  match answer, step, fresh with
  | .error message, step, _ =>
      exact ⟨.nothing, stage.idle shared rfl rfl rfl step (.refused message rfl rfl yet)⟩
  | .ok file, step, fresh =>
      obtain ⟨_, temp, _, made, created⟩ :
        file.name.directory = (jobs process).path.directory ∧ file.name.isTemp = true ∧
          disk.entries file.name = none ∧ file.inode = disk.made ∧
          after = disk.create file.name := step
      subst created
      refine ⟨.file file, ⟨?_, ?_⟩, ⟨create_sound shared.sound, ?_, ?_, ?_⟩, ?_⟩
      · rw [held_created rfl]
        rfl
      · refine .created file rfl rfl (create_owned shared.sound temp made) ?_
        rw [commits_quiet rfl]
        exact yet
      · intro path plain
        have different : path ≠ file.name := fun same => by
          rw [same, temp] at plain
          cases plain
        rw [expected_quiet rfl, create_read shared.sound different]
        exact shared.reads path plain
      · rw [commits_quiet rfl]
        exact shared.once
      · intro path temp found
        rw [Disk.create_entries] at found
        split at found
        case isTrue same =>
          rw [same]
          exact .inr (.inl ⟨process, held_created rfl⟩)
        refine (shared.accounted path temp found).later fun other holds => ?_
        have different : other ≠ process := fun same => by
          have names := stage.names
          rw [← same, holds] at names
          cases names
        exact (held_snoc_of_ne different).trans holds
      · intro other own program different _ _ kept
        have name : file.name ∉ own.names := by
          rw [← kept.names, Option.mem_toList]
          exact fresh.unused rfl different
        have inode : file.inode ∉ own.inodes := fun member =>
          absurd made (kept.phase.made shared.sound member).ne
        have apart_ : (Claim.file file).Apart own :=
          ⟨List.singleton_disjoint.mpr name, List.singleton_disjoint.mpr inode⟩
        exact ⟨kept.kept different ((touches_create made).frame name inode), apart_, apart_.symm⟩

/-- Every turn keeps what is known. -/
theorem taken (plain : ∀ process, (jobs process).path.isTemp = false)
    (shared : Shared jobs start turns disk)
    (stage : Stage jobs process claim (.call operation next) turns disk)
    (step : system.Step disk operation answer after)
    (fresh : Fresh (turns ++
      [⟨process, (⟨disk, operation, answer, after⟩ : Moment (interface α) (Disk α))⟩])) :
    Taken jobs start turns disk process claim operation answer (next answer) after := by
  cases stage.phase with
  | waiting left claimed yet => exact taken_waiting stage shared left claimed yet fresh step
  | refused _ left => cases left
  | created file left claimed owned yet =>
      exact taken_created stage shared left claimed owned yet step
  | writing file front rest left claimed owned whole yet =>
      exact taken_writing stage shared left claimed owned whole yet step
  | closing file left claimed owned yet =>
      exact taken_closing stage shared left claimed owned yet step
  | committing file left claimed owned yet =>
      exact taken_committing stage shared (plain process) left claimed owned yet step
  | renamed file left claimed _ gone done =>
      exact taken_renamed stage shared left claimed gone done step
  | abandoning file message content left claimed owned yet =>
      exact taken_abandoning stage shared left claimed owned yet step
  | failing file message content left claimed owned yet =>
      exact taken_failing stage shared left claimed owned yet step
  | returned _ left => cases left

end Phases

/-- What is known after any turns of any processes. -/
theorem known {jobs : Process → Job α} {start disk : Disk α} {turns : Turns α Process}
    {rest : Process → Go α (Except String Unit)} (sound : start.Sound)
    (plain : ∀ process, (jobs process).path.isTemp = false) (fresh : Fresh turns)
    (interleaves : Interleaves system (fun process => (jobs process).program) start turns rest
      disk) :
    (∃ claims, Held (Stage jobs) Claim.Apart claims rest turns disk) ∧
      Shared jobs start turns disk := by
  refine interleaves.held Fresh (fun _ => .nothing) ⟨fun process => ?_, ?_⟩
    ⟨sound, fun _ _ => rfl, List.nodup_nil, fun _ _ found => .inl found⟩
      (fun _ _ => Fresh.earlier) ?_ fresh
  · exact ⟨rfl, .waiting rfl rfl (List.not_mem_nil)⟩
  · exact fun _ _ _ => ⟨List.disjoint_nil_left _, List.disjoint_nil_left _⟩
  · intro turns disk process claim operation next answer after shared stage step fresh
    exact taken plain shared stage step fresh

theorem not_writing {file : Handle} {data : List α} {path : Path} {outcome : Except String Unit} :
    .done outcome ≠ writeAll file data >>= conclude file path := by
  rw [writeAll_bind]
  intro same
  cases same

/-- A call that returned has nothing left, and says whether it committed. -/
theorem Stage.returned {jobs : Process → Job α} {process : Process} {claim : Claim}
    {turns : Turns α Process} {disk : Disk α} {outcome : Except String Unit}
    (stage : Stage jobs process claim (.done outcome) turns disk) :
    held turns process = none ∧ (outcome = .ok () ↔ process ∈ commits turns) := by
  have names := stage.names
  cases stage.phase with
  | refused message left claimed yet =>
      cases left
      rw [claimed] at names
      exact ⟨Option.toList_eq_nil_iff.mp names, by simp [yet]⟩
  | returned outcome' left claimed agree =>
      cases left
      rw [claimed] at names
      exact ⟨Option.toList_eq_nil_iff.mp names, agree⟩
  | writing file front rest left => exact absurd left not_writing
  | waiting left => cases left
  | created file left => cases left
  | closing file left => cases left
  | committing file left => cases left
  | renamed file left => cases left
  | abandoning file message content left => cases left
  | failing file message content left => cases left

/-- At any moment each file is whatever was committed to it last, whole, and what was there at
the start before that. A process commits at most once, and `Write` returns no error exactly when
it did. A temporary file that was not there before belongs to a process that has not returned, or
could not be removed. -/
theorem write_atomic {jobs : Process → Job α} {start disk : Disk α} {turns : Turns α Process}
    {rest : Process → Go α (Except String Unit)} (sound : start.Sound)
    (plain : ∀ process, (jobs process).path.isTemp = false) (fresh : Fresh turns)
    (interleaves : Interleaves system (fun process => (jobs process).program) start turns rest
      disk) :
    (∀ path, path.isTemp = false → disk.read path = expected jobs start turns path) ∧
      (commits turns).Nodup ∧
      (∀ process outcome, rest process = .done outcome →
        (outcome = .ok () ↔ process ∈ commits turns)) ∧
      ∀ path, path.isTemp = true → (disk.entries path).isSome = true →
        (start.entries path).isSome = true ∨
          (∃ process, held turns process = some path ∧
            ∀ outcome, rest process ≠ .done outcome) ∨
          ∃ turn ∈ turns, spared turn = some path := by
  have ⟨⟨claims, knows⟩, shared⟩ := known sound plain fresh interleaves
  have returned {process outcome} (ended : rest process = .done outcome) :
      held turns process = none ∧ (outcome = .ok () ↔ process ∈ commits turns) :=
    (ended ▸ knows.stages process).returned
  refine ⟨shared.reads, shared.once, fun process outcome ended => (returned ended).2, ?_⟩
  intro path temp found
  rcases shared.accounted path temp found with before | ⟨process, holds⟩ | kept
  · exact .inl before
  · refine .inr (.inl ⟨process, holds, fun outcome ended => ?_⟩)
    rw [(returned ended).1] at holds
    cases holds
  · exact .inr (.inr kept)

/-! ## One process -/

/-- Every plain path reads as before, but for one. -/
def Replaced (disk after : Disk α) (job : Job α) : Prop :=
  ∀ path, path.isTemp = false →
    after.read path = if job.path = path then some job.file else disk.read path

def Untouched (disk after : Disk α) : Prop :=
  ∀ path, path.isTemp = false → after.read path = disk.read path

theorem Replaced.same {disk after : Disk α} {job : Job α} (replaced : Replaced disk after job)
    (plain : job.path.isTemp = false) : after.read job.path = some job.file :=
  (replaced _ plain).trans (if_pos rfl)

theorem Replaced.other {disk after : Disk α} {job : Job α} {path : Path}
    (replaced : Replaced disk after job) (different : job.path ≠ path)
    (plain : path.isTemp = false) : after.read path = disk.read path :=
  (replaced _ plain).trans (if_neg different)

theorem expected_alone {job : Job α} {start : Disk α} {turns : Turns α Unit} {path : Path} :
    expected (fun _ => job) start turns path =
      if () ∈ commits turns ∧ job.path = path then some job.file else start.read path := by
  have writes : writer (fun _ => job) turns path =
      if () ∈ commits turns ∧ job.path = path then some () else none := by
    rw [writer]
    by_cases same : job.path = path
    · cases listed : (commits turns).reverse with
      | nil => simp [List.reverse_eq_nil_iff.mp listed]
      | cons last earlier =>
          have member : () ∈ commits turns := by
            rw [← List.mem_reverse, listed]
            exact List.mem_cons_self
          simp [same, member]
    · simp [same]
  rw [expected, writes]
  by_cases both : () ∈ commits turns ∧ job.path = path
  · rw [if_pos both, if_pos both]
  · rw [if_neg both, if_neg both]

/-- What happens in a program that runs alone, as turns. -/
abbrev alone (moments : List (Moment (interface α) (Disk α))) : Turns α Unit :=
  moments.map fun moment => ⟨(), moment⟩

/-- A call of `Write` on its own, however it ends. -/
theorem write_alone {job : Job α} {disk final : Disk α}
    {moments : List (Moment (interface α) (Disk α))} {outcome : Option (Except String Unit)}
    (sound : disk.Sound) (plain : job.path.isTemp = false)
    (execution : Executes system job.program disk moments final outcome) :
    final.Sound ∧ ((outcome ≠ some (.ok ()) ∧ Untouched disk final) ∨
      (∀ answer, outcome = some answer → answer = .ok ()) ∧ Replaced disk final job) := by
  have untaken : Interleaves system (fun _ : Unit => job.program) disk [] _ disk := .start
  rcases untaken.extend () execution with ⟨rest, interleaves, ends⟩
  rw [List.nil_append] at interleaves
  have fresh : Fresh (alone moments) := fun _ _ _ different => absurd rfl different
  obtain ⟨⟨claims, knows⟩, shared⟩ :
      (∃ claims, Held (Stage fun _ => job) Claim.Apart claims rest (alone moments) final) ∧
        Shared (fun _ => job) disk (alone moments) final :=
    known sound (fun _ => plain) fresh interleaves
  refine ⟨shared.sound, ?_⟩
  have answered {answer} (returned : outcome = some answer) :
      answer = .ok () ↔ () ∈ commits (alone moments) := by
    have left : rest () = .done answer := by
      rw [ends answer returned]
      rfl
    exact (left ▸ knows.stages ()).returned.2
  by_cases committed : () ∈ commits (alone moments)
  · refine .inr ⟨fun answer returned => (answered returned).mpr committed, fun path plain => ?_⟩
    rw [shared.reads path plain, expected_alone]
    simp only [committed, true_and]
  · refine .inl ⟨fun returned => committed ((answered returned).mp rfl), fun path plain => ?_⟩
    rw [shared.reads path plain, expected_alone, if_neg fun both => committed both.1]

/-! ## Two processes -/

def filled (job : Job α) (file : Handle) (disk : Disk α) : Disk α :=
  (disk.setMode file.inode job.mode).append file.inode (job.data.take job.data.length)

def settled (job : Job α) (file : Handle) (disk : Disk α) : Disk α :=
  (filled job file disk).link file.name job.path

/-- What `Write` does once the file is created, if all goes well. -/
def smooth (job : Job α) (file : Handle) (disk : Disk α) : List (Moment (interface α) (Disk α)) :=
  [⟨disk, .chmod file job.mode, (.ok () : Except String Unit), disk.setMode file.inode job.mode⟩,
    ⟨disk.setMode file.inode job.mode, .write file job.data,
      (.ok job.data.length : Except String Nat), filled job file disk⟩,
    ⟨filled job file disk, .close file, (.ok () : Except String Unit), filled job file disk⟩,
    ⟨filled job file disk, .rename file.name job.path, (.ok () : Except String Unit),
      settled job file disk⟩,
    ⟨settled job file disk, .remove file.name, (.error "no such file" : Except String Unit),
      settled job file disk⟩]

theorem smooth_executes (job : Job α) {file : Handle} {disk : Disk α}
    (there : (disk.entries file.name).isSome = true) :
    Executes system (job.fill file) disk (smooth job file disk) (settled job file disk)
      (some (.ok ())) := by
  have finished : Executes system (publish file job.path) (filled job file disk)
      ((smooth job file disk).drop 2) (settled job file disk) (some (.ok ())) :=
    .call rfl (.call ⟨there, rfl⟩ (.call rfl (.done _ _)))
  have written : Executes system (writeAll file job.data >>= conclude file job.path)
      (disk.setMode file.inode job.mode) ((smooth job file disk).drop 1) (settled job file disk)
      (some (.ok ())) := by
    rw [writeAll_bind]
    refine .call ⟨le_refl _, rfl⟩ ?_
    simp only [le_refl, if_pos]
    exact finished
  exact .call rfl written

/-- Two writers of one file: the second is through before the first goes on. -/
def target : Path := ⟨ascii "/var/lib/homelab", ascii "state.json"⟩

def job (late : Bool) : Job Nat := ⟨target, if late then [3] else [1, 2], 0o644⟩

def temporary (late : Bool) : Handle :=
  if late then ⟨⟨target.directory, ascii ".homelab-2"⟩, 1⟩
  else ⟨⟨target.directory, ascii ".homelab-1"⟩, 0⟩

def blank : Disk Nat := ⟨fun _ => none, fun _ => ⟨[], 0⟩, 0⟩

def opened (late : Bool) (disk : Disk Nat) : Moment (interface Nat) (Disk Nat) :=
  ⟨disk, .createTemp target.directory, (.ok (temporary late) : Except String Handle),
    disk.create (temporary late).name⟩

/-- Both files are created, then the late process runs to its end, then the other. -/
def overlap : Turns Nat Bool :=
  let first := blank.create (temporary false).name
  let second := first.create (temporary true).name
  [⟨false, opened false blank⟩, ⟨true, opened true first⟩] ++
    (smooth (job true) (temporary true) second).map (fun moment => ⟨true, moment⟩) ++
    (smooth (job false) (temporary false)
      (settled (job true) (temporary true) second)).map fun moment => ⟨false, moment⟩

theorem overlap_interleaves : ∃ rest disk,
    Interleaves system (fun late => (job late).program) blank overlap rest disk := by
  have first : system.Step blank (.createTemp target.directory)
      (.ok (temporary false) : Except String Handle) (blank.create (temporary false).name) :=
    ⟨rfl, by decide, rfl, rfl, rfl⟩
  have second : system.Step (blank.create (temporary false).name) (.createTemp target.directory)
      (.ok (temporary true) : Except String Handle)
      ((blank.create (temporary false).name).create (temporary true).name) :=
    ⟨rfl, by decide, by decide, rfl, rfl⟩
  have none_yet : Interleaves system (fun late => (job late).program) blank [] _ blank := .start
  have created := (none_yet.next false rfl first).next true rfl second
  have late := created.append true (smooth_executes (job true) (by decide))
  exact ⟨_, _, late.append false (smooth_executes (job false) (by decide))⟩

theorem write_atomic_overlap : ∃ rest disk,
    Interleaves system (fun late => (job late).program) blank overlap rest disk ∧
      disk.read target = some ⟨[1, 2], 0o644⟩ := by
  have ⟨rest, disk, interleaves⟩ := overlap_interleaves
  have plain : ∀ late, (job late).path.isTemp = false := by decide
  have fresh : Fresh overlap := by
    unfold Fresh
    decide
  have sound : blank.Sound := fun _ _ found => by cases found
  have ⟨reads, _⟩ := write_atomic sound plain fresh interleaves
  refine ⟨rest, disk, interleaves, ?_⟩
  rw [reads target (plain true)]
  rfl

end Homelab.AtomicFile
