import Homelab.NfsMount.Supervisor
import Mathlib.Data.List.Nodup

/-! # One mount in the output of nfsstat

`nfsstat -m` prints a block for each mount. What `mount_status` says of a mount is what its own
block says, wherever the block stands and whatever the others are.
-/

namespace Homelab.NfsMount

open Text

/-- The block of one mount: an unindented header and indented lines, of which at most one
has the flags. -/
structure Block where
  target : Line
  source : Line
  body : List Line
  unindented : (target ++ " from ".toList ++ source).head? ≠ some ' '
  plain : contains " from " target = false
  indented : ∀ line ∈ body, line = [] ∨ line.head? = some ' '
  single : (body.filter (contains "Status flags:")).length ≤ 1

def Block.header (block : Block) : Line := block.target ++ " from ".toList ++ block.source

def Block.lines (block : Block) : List Line := block.header :: block.body

/-- What stands after `Status flags:`. -/
def Block.flags (block : Block) : Option String :=
  (block.body.find? (contains "Status flags:")).map fun line =>
    strip (.ofList (after "Status flags:" line))

def verdict (flags : String) : Health :=
  if contains "not responding" flags.toList then .hung
  else if flags = "0x0" then .healthy
  else .unknown

structure Prints (output : String) (blocks : List Block) : Prop where
  cut : splitlines output = blocks.flatMap Block.lines
  distinct : (blocks.map Block.target).Nodup

/-! ## Lines of a block -/

/-- ` from ` overlaps with itself in one character only, its space. -/
theorem not_begins {chars : Line} (other : ¬" from ".toList.isPrefixOf chars = true)
    (separable : ¬" from".toList <:+ chars) :
    ¬" from ".toList.isPrefixOf (chars ++ " from".toList) = true := by
  have spelled : " from ".toList = [' ', 'f', 'r', 'o', 'm', ' '] := by decide
  have shorter : " from".toList = [' ', 'f', 'r', 'o', 'm'] := by decide
  rw [spelled, shorter] at *
  rcases chars with _ | ⟨first, _ | ⟨second, _ | ⟨third, _ | ⟨fourth, _ | ⟨fifth, _ | ⟨sixth,
    more⟩⟩⟩⟩⟩⟩
  · decide
  · simp [List.isPrefixOf]
  · simp [List.isPrefixOf]
  · simp [List.isPrefixOf]
  · simp [List.isPrefixOf]
  · intro begins
    apply separable
    simp only [List.isPrefixOf, List.cons_append, List.nil_append, Bool.and_eq_true,
      beq_iff_eq] at begins
    rcases begins with ⟨rfl, rfl, rfl, rfl, rfl, _⟩
    exact List.suffix_refl _
  · simpa [List.isPrefixOf] using other

/-- A target that does not end in ` from` is where its header is cut. -/
theorem cutAt_target {target : Line} (plain : contains " from " target = false)
    (separable : ¬" from".toList <:+ target) :
    cutAt " from ".toList (target ++ " from".toList) = none := by
  induction target with
  | nil => decide
  | cons char rest induction =>
      rw [contains, Option.isSome_eq_false_iff, Option.isNone_iff_eq_none, cutAt] at plain
      split at plain
      · cases plain
      · rename_i other
        rw [Option.map_eq_none_iff] at plain
        have tail := induction (by rw [contains, plain]; rfl)
          fun ends => separable (ends.trans (List.suffix_cons _ _))
        have later : ¬" from ".toList.isPrefixOf (char :: (rest ++ " from".toList)) = true := by
          exact not_begins other separable
        rw [List.cons_append, cutAt, if_neg later, tail]
        rfl

theorem Block.contains_header (block : Block) (separable : ¬" from".toList <:+ block.target) :
    contains " from " block.header = true ∧ before " from " block.header = block.target := by
  have cut := cutAt_append (by decide) (cutAt_target block.plain separable) block.source
  rw [contains, before, Block.header, cut]
  exact ⟨rfl, rfl⟩

/-- An indented line is no header. -/
theorem not_header {line : Line} (indented : line = [] ∨ line.head? = some ' ') :
    ¬(contains " from " line && line.head? ≠ some ' ') = true := by
  rcases indented with rfl | space
  · decide
  · simp [space]

theorem flagsIn_body {target : Line} {body rest : List Line} {inTarget : Bool}
    (indented : ∀ line ∈ body, line = [] ∨ line.head? = some ' ') :
    flagsIn target inTarget (body ++ rest) =
      match (if inTarget then body.find? (contains "Status flags:") else none) with
      | some line => verdict (strip (.ofList (after "Status flags:" line)))
      | none => flagsIn target inTarget rest := by
  induction body with
  | nil => cases inTarget <;> rfl
  | cons line more induction =>
      have later := induction fun other member => indented other (List.mem_cons_of_mem _ member)
      rw [List.cons_append, flagsIn, if_neg (not_header (indented line List.mem_cons_self)),
        later]
      cases inTarget with
      | false => rfl
      | true =>
          cases found : contains "Status flags:" line with
          | false => simp [found]
          | true => simp [found, verdict]

/-! ## Whole outputs -/

theorem flagsIn_block {target : Line} {inTarget : Bool} {rest : List Line} (block : Block)
    (separable : ¬" from".toList <:+ block.target) :
    flagsIn target inTarget (block.lines ++ rest) =
      match (if block.target = target then block.flags else none) with
      | some flags => verdict flags
      | none => flagsIn target (block.target = target) rest := by
  have ⟨named, first⟩ := block.contains_header separable
  have header : (contains " from " block.header && block.header.head? ≠ some ' ') = true := by
    rw [named, Bool.true_and, decide_eq_true_eq]
    exact block.unindented
  rw [Block.lines, List.cons_append, flagsIn, if_pos header, first, flagsIn_body block.indented]
  by_cases own : block.target = target
  · simp only [own, decide_true, if_true, Block.flags]
    cases block.body.find? (contains "Status flags:") <;> rfl
  · simp [own]

def told (blocks : List Block) (target : Line) : Health :=
  match blocks.find? (·.target = target) with
  | some block => (block.flags.map verdict).getD .unknown
  | none => .unknown

theorem flagsIn_others {target : Line} {inTarget : Bool} {blocks : List Block}
    (separable : ∀ block ∈ blocks, ¬" from".toList <:+ block.target)
    (others : ∀ block ∈ blocks, block.target ≠ target) :
    flagsIn target inTarget (blocks.flatMap Block.lines) = .unknown := by
  induction blocks generalizing inTarget with
  | nil => rfl
  | cons block rest induction =>
      rw [List.flatMap_cons, flagsIn_block block (separable block List.mem_cons_self),
        if_neg (others block List.mem_cons_self)]
      exact induction (fun other member => separable other (List.mem_cons_of_mem _ member))
        fun other member => others other (List.mem_cons_of_mem _ member)

theorem flagsIn_told {target : Line} {inTarget : Bool} {blocks : List Block}
    (separable : ∀ block ∈ blocks, ¬" from".toList <:+ block.target)
    (distinct : (blocks.map Block.target).Nodup) :
    flagsIn target inTarget (blocks.flatMap Block.lines) = told blocks target := by
  induction blocks generalizing inTarget with
  | nil => rfl
  | cons block rest induction =>
      have later : ∀ other ∈ rest, ¬" from".toList <:+ other.target :=
        fun other member => separable other (List.mem_cons_of_mem _ member)
      rw [List.map_cons, List.nodup_cons] at distinct
      rw [List.flatMap_cons, flagsIn_block block (separable block List.mem_cons_self), told,
        List.find?_cons]
      by_cases own : block.target = target
      · have others : ∀ other ∈ rest, other.target ≠ target := by
          intro other member same
          exact distinct.1 (List.mem_map.mpr ⟨other, member, same.trans own.symm⟩)
        simp only [own, if_true, decide_true]
        cases block.flags with
        | none => exact flagsIn_others later others
        | some flags => rfl
      · simp only [own, if_false, decide_false]
        exact induction later distinct.2

theorem mountStatus_told {output : String} {blocks : List Block} (prints : Prints output blocks)
    (separable : ∀ block ∈ blocks, ¬" from".toList <:+ block.target) (target : String) :
    mountStatus output target = told blocks target.toList := by
  rw [mountStatus, prints.cut]
  exact flagsIn_told separable prints.distinct

theorem told_block {blocks : List Block} {block : Block} {target : Line}
    (distinct : (blocks.map Block.target).Nodup) (member : block ∈ blocks)
    (own : block.target = target) :
    told blocks target = (block.flags.map verdict).getD .unknown := by
  rw [told]
  cases found : blocks.find? (·.target = target) with
  | none =>
      have others := List.find?_eq_none.mp found block member
      simp [own] at others
  | some first =>
      have named : first.target = target := by simpa using List.find?_some found
      have same : first = block :=
        List.inj_on_of_nodup_map distinct (List.mem_of_find?_eq_some found) member
          (named.trans own.symm)
      rw [same]

theorem told_nothing {blocks : List Block} {target : Line}
    (others : ∀ block ∈ blocks, block.target ≠ target) : told blocks target = .unknown := by
  have none : blocks.find? (·.target = target) = none := by
    simpa using others
  rw [told, none]

/-- Anything but `unknown` is what the flags in the block of the target say. -/
theorem told_iff {blocks : List Block} {target : Line} {state : Health}
    (distinct : (blocks.map Block.target).Nodup) (known : state ≠ .unknown) :
    told blocks target = state ↔ ∃ block ∈ blocks, block.target = target ∧
      ∃ flags, block.flags = some flags ∧ verdict flags = state := by
  constructor
  · intro tells
    by_cases present : ∃ block ∈ blocks, block.target = target
    · rcases present with ⟨block, member, own⟩
      rw [told_block distinct member own] at tells
      cases read : block.flags with
      | none =>
          rw [read] at tells
          exact absurd tells.symm known
      | some flags =>
          rw [read] at tells
          exact ⟨block, member, own, flags, read, tells⟩
    · rw [told_nothing fun block member own => present ⟨block, member, own⟩] at tells
      exact absurd tells.symm known
  · rintro ⟨block, member, own, flags, read, tells⟩
    rw [told_block distinct member own, read]
    exact tells

theorem verdict_hung (flags : String) :
    verdict flags = .hung ↔ contains "not responding" flags.toList = true := by
  rw [verdict]
  split
  · rename_i silent
    simp [silent]
  · rename_i responding
    split <;> simp [responding]

theorem verdict_healthy (flags : String) : verdict flags = .healthy ↔ flags = "0x0" := by
  constructor
  · intro healthy
    rw [verdict] at healthy
    split at healthy
    · cases healthy
    · split at healthy
      · assumption
      · cases healthy
  · rintro rfl
    decide

theorem verdict_cases (flags : String) :
    verdict flags = .hung ∨ verdict flags = .healthy ∨ verdict flags = .unknown := by
  rw [verdict]
  split
  · exact .inl rfl
  · split
    · exact .inr (.inl rfl)
    · exact .inr (.inr rfl)

/-- The status of a mount is read from its own block, and outputs that have the same block for
it give the same status. -/
theorem mountStatus_local {output : String} {blocks : List Block} (prints : Prints output blocks)
    (separable : ∀ block ∈ blocks, ¬" from".toList <:+ block.target) (target : String) :
    (mountStatus output target = .hung ↔
      ∃ block ∈ blocks, block.target = target.toList ∧
        ∃ flags, block.flags = some flags ∧ contains "not responding" flags.toList = true) ∧
    (mountStatus output target = .healthy ↔
      ∃ block ∈ blocks, block.target = target.toList ∧ block.flags = some "0x0") ∧
    (mountStatus output target = .hung ∨ mountStatus output target = .healthy ∨
      mountStatus output target = .unknown) ∧
    ∀ (other : String) (others : List Block), Prints other others →
      (∀ block ∈ others, ¬" from".toList <:+ block.target) →
      (∀ block : Block, block.target = target.toList → (block ∈ others ↔ block ∈ blocks)) →
      mountStatus other target = mountStatus output target := by
  have tells := mountStatus_told prints separable target
  refine ⟨?_, ?_, ?_, fun other others printsOther separableOther same => ?_⟩
  · rw [tells, told_iff prints.distinct (by decide)]
    simp only [verdict_hung]
  · rw [tells, told_iff prints.distinct (by decide)]
    simp [verdict_healthy]
  · rw [tells, told]
    cases blocks.find? (·.target = target.toList) with
    | none => exact .inr (.inr rfl)
    | some block =>
        cases read : block.flags with
        | none => exact .inr (.inr (by simp [read]))
        | some flags => simpa [read] using verdict_cases flags
  · rw [tells, mountStatus_told printsOther separableOther target]
    by_cases present : ∃ block ∈ blocks, block.target = target.toList
    · rcases present with ⟨block, member, own⟩
      rw [told_block prints.distinct member own,
        told_block printsOther.distinct ((same block own).mpr member) own]
    · rw [told_nothing fun block member own => present ⟨block, member, own⟩,
        told_nothing fun block member own => present ⟨block, (same block own).mp member, own⟩]

/-- A mount at `/srv` next to one whose name goes on after `/srv`. -/
def srv : Block where
  target := "/srv".toList
  source := "192.0.2.1:/srv".toList
  body := ["  Parameters: v3".toList, "     Status flags: 0x0".toList, []]
  unindented := by decide
  plain := by decide
  indented := by decide
  single := by decide

def srvOther : Block where
  target := "/srv-other".toList
  source := "192.0.2.1:/srv".toList
  body := ["     Status flags: 0x2,not responding".toList]
  unindented := by decide
  plain := by decide
  indented := by decide
  single := by decide

def srvOutput : String :=
  .ofList (joined ([srvOther, srv].flatMap Block.lines))

theorem mountStatus_srv :
    mountStatus srvOutput "/srv" = .healthy ∧
      mountStatus srvOutput "/srv-other" = .hung := by
  have prints : Prints srvOutput [srvOther, srv] := by
    constructor
    · rw [splitlines, srvOutput, String.toList_ofList]
      exact lines_joined (by decide +kernel)
    · decide +kernel
  have separable : ∀ block ∈ [srvOther, srv], ¬" from".toList <:+ block.target := by
    decide +kernel
  constructor
  · exact (mountStatus_local prints separable "/srv").2.1.mpr
      ⟨srv, by simp, rfl, by decide +kernel⟩
  · exact (mountStatus_local prints separable "/srv-other").1.mpr
      ⟨srvOther, by simp, rfl, _, rfl, by decide +kernel⟩

/-- A mount whose name ends in ` from`. -/
def aside : Block where
  target := "/a from".toList
  source := "192.0.2.1:/srv".toList
  body := ["     Status flags: 0x0".toList]
  unindented := by decide
  plain := by decide
  indented := by decide
  single := by decide

/-- The header of such a mount is cut too early. -/
theorem mountStatus_misread :
    ¬∀ (output : String) (blocks : List Block), Prints output blocks → ∀ target : String,
      (mountStatus output target = .healthy ↔
        ∃ block ∈ blocks, block.target = target.toList ∧ block.flags = some "0x0") := by
  intro claim
  have prints : Prints (.ofList (joined aside.lines)) [aside] := by
    constructor
    · rw [splitlines, String.toList_ofList, List.flatMap_singleton]
      exact lines_joined (by decide +kernel)
    · decide +kernel
  have healthy := (claim _ [aside] prints "/a from").mpr
    ⟨aside, List.mem_singleton_self _, rfl, by decide +kernel⟩
  have misread : mountStatus (.ofList (joined aside.lines)) "/a from" = .unknown := by
    decide +kernel
  rw [misread] at healthy
  cases healthy

end Homelab.NfsMount
