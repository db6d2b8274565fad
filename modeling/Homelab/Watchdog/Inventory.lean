import Homelab.Foundation.ByteText
import Mathlib.Data.List.Sort

/-! # Docker inventories as the watchdog reads them -/

namespace Homelab.Watchdog

open ByteText

abbrev Name := Bytes

inductive ContainerState
  | created
  | running
  | paused
  | restarting
  | removing
  | exited
  | dead
deriving DecidableEq, Repr

inductive Health
  | empty
  | none
  | healthy
  | unhealthy
  | starting
deriving DecidableEq, Repr

structure Observation where
  state : ContainerState
  health : Health
deriving DecidableEq, Repr

def Observation.eligibleUnhealthy (o : Observation) : Bool :=
  o.health = .unhealthy &&
    (o.state = .running || o.state = .paused || o.state = .restarting)

def isAlphanumeric (byte : UInt8) : Bool :=
  isDigit byte || (65 ≤ byte && byte ≤ 90) || (97 ≤ byte && byte ≤ 122)

/-- `namePattern`: `^[A-Za-z0-9][A-Za-z0-9_.-]{0,127}$`. -/
def namePattern : Name → Bool
  | [] => false
  | head :: tail =>
      isAlphanumeric head && decide (tail.length ≤ 127) &&
        tail.all fun byte =>
          isAlphanumeric byte || byte = 95 || byte = 46 || byte = 45

theorem namePattern_letters {name : Name} (valid : namePattern name = true) :
    ∀ byte ∈ name, (isAlphanumeric byte || byte = 95 || byte = 46 || byte = 45) = true := by
  cases name with
  | nil => cases valid
  | cons head tail =>
      simp only [namePattern, Bool.and_eq_true, List.all_eq_true] at valid
      intro byte member
      rcases List.mem_cons.mp member with same | member
      · simp [same, valid.1.1]
      · exact valid.2 byte member

def containerStates : List (Bytes × ContainerState) :=
  [(ascii "created", .created), (ascii "running", .running),
    (ascii "paused", .paused), (ascii "restarting", .restarting),
    (ascii "removing", .removing), (ascii "exited", .exited),
    (ascii "dead", .dead)]

def healthStates : List (Bytes × Health) :=
  [([], .empty), (ascii "none", .none), (ascii "healthy", .healthy),
    (ascii "unhealthy", .unhealthy), (ascii "starting", .starting)]

/-- Names in the order of `sort.Strings`. -/
def sortNames (names : List Name) : List Name :=
  names.insertionSort fun left right => left ≤ right

abbrev Rows := List (Name × Observation)

def inventoryRow (rows : Rows) (line : Bytes) : Except String Rows :=
  if line = [] then .ok rows
  else
    match split 124 line with
    | [name, state, health] =>
        if ¬namePattern name then .error "watchdog: invalid inventory row"
        else if (rows.lookup name).isSome then
          .error "watchdog: duplicate inventory row"
        else
          match containerStates.lookup state, healthStates.lookup health with
          | none, _ => .error "watchdog: invalid container state"
          | some _, none => .error "watchdog: invalid health state"
          | some state, some health => .ok (rows ++ [(name, ⟨state, health⟩)])
    | _ => .error "watchdog: invalid inventory row"

/-- `inventory`: the rows of `docker ps -a` and their names in order. -/
def inventory (data : Bytes) : Except String (List Name × Rows) := do
  if 2 ^ 20 < data.length then .error "watchdog: inventory too large"
  else
    let rows ← (split 10 (trimSpace data)).foldlM inventoryRow []
    if 4096 < rows.length then .error "watchdog: too many containers"
    else .ok (sortNames (rows.map Prod.fst), rows)

/-- `names`: the names `docker ps` prints for unhealthy containers. -/
def names (data : Bytes) : Except String (List Name) :=
  if 2 ^ 20 < data.length then .error "watchdog: inventory too large"
  else
    let list := fields data
    if 4096 < list.length then .error "watchdog: too many containers"
    else if list.all namePattern ∧ list.Nodup then .ok (sortNames list)
    else .error "watchdog: invalid inventory"

/-- `observations[n].eligibleUnhealthy()`: false for a name without a row. -/
def eligible (rows : Rows) (name : Name) : Bool :=
  match rows.lookup name with
  | some o => o.eligibleUnhealthy
  | none => false

/-- The two inventories agree on which containers are unhealthy. -/
def consistent (unhealthy all : List Name) (rows : Rows) : Prop :=
  (∀ name ∈ unhealthy, name ∈ all ∧ eligible rows name) ∧
    ∀ name ∈ all, eligible rows name = decide (name ∈ unhealthy)

instance (unhealthy all : List Name) (rows : Rows) :
    Decidable (consistent unhealthy all rows) :=
  inferInstanceAs (Decidable (_ ∧ _))

example : inventory (ascii "db|running|unhealthy\n") =
    .ok ([ascii "db"], [(ascii "db", ⟨.running, .unhealthy⟩)]) := by decide

/-! ## No name is listed twice -/

theorem inventoryRow_nodup {rows next : Rows} {line : Bytes}
    (nodup : (rows.map Prod.fst).Nodup)
    (parsed : inventoryRow rows line = .ok next) :
    (next.map Prod.fst).Nodup := by
  unfold inventoryRow at parsed
  split at parsed
  · cases parsed
    exact nodup
  · split at parsed
    · split at parsed
      · cases parsed
      · split at parsed
        · cases parsed
        · rename_i name _ _ _ _ fresh
          split at parsed
          · cases parsed
          · cases parsed
          · cases parsed
            have notMember : name ∉ rows.map Prod.fst := by
              intro member
              rcases List.mem_map.mp member with ⟨row, rowMember, rfl⟩
              cases found : rows.lookup row.1 with
              | none =>
                  have different := List.lookup_eq_none_iff.mp found row rowMember
                  simp at different
              | some value => simp [found] at fresh
            rw [List.map_append, List.nodup_append]
            refine ⟨nodup, by simp, ?_⟩
            intro left leftMember right rightMember equal
            simp only [List.map_cons, List.map_nil, List.mem_singleton] at rightMember
            rw [equal, rightMember] at leftMember
            exact notMember leftMember
    · cases parsed

theorem inventory_rows {data : Bytes} {all : List Name} {rows : Rows}
    (parsed : inventory data = .ok (all, rows)) :
    (split 10 (trimSpace data)).foldlM inventoryRow [] = .ok rows ∧
      all = sortNames (rows.map Prod.fst) := by
  unfold inventory at parsed
  split at parsed
  · cases parsed
  · cases lines : (split 10 (trimSpace data)).foldlM inventoryRow [] with
    | error message =>
        rw [lines] at parsed
        cases parsed
    | ok found =>
        rw [lines] at parsed
        simp only [bind, Except.bind] at parsed
        split at parsed
        · cases parsed
        · simp only [Except.ok.injEq, Prod.mk.injEq] at parsed
          rcases parsed with ⟨rfl, rfl⟩
          exact ⟨rfl, rfl⟩

/-- What every row keeps holds of the whole listing. -/
theorem inventory_invariant {inv : Rows → Prop} {data : Bytes} {all : List Name} {rows : Rows}
    (start : inv [])
    (step : ∀ rows line next, inv rows → inventoryRow rows line = .ok next → inv next)
    (parsed : inventory data = .ok (all, rows)) : inv rows := by
  have folded : ∀ (lines : List Bytes) (before after : Rows), inv before →
      lines.foldlM inventoryRow before = .ok after → inv after := by
    intro lines
    induction lines with
    | nil =>
        intro before after holds finished
        cases finished
        exact holds
    | cons line lines induction =>
        intro before after holds finished
        rw [List.foldlM_cons] at finished
        cases first : inventoryRow before line with
        | error message =>
            rw [first] at finished
            cases finished
        | ok next =>
            rw [first] at finished
            exact induction next after (step before line next holds first) finished
  exact folded _ _ _ start (inventory_rows parsed).1

theorem inventory_nodup {data : Bytes} {all : List Name} {rows : Rows}
    (parsed : inventory data = .ok (all, rows)) : all.Nodup := by
  have nodup : (rows.map Prod.fst).Nodup :=
    @inventory_invariant (fun rows => (rows.map Prod.fst).Nodup) data all rows List.nodup_nil
      (fun _ _ _ nodup row => inventoryRow_nodup nodup row) parsed
  rw [(inventory_rows parsed).2]
  exact (List.perm_insertionSort _ _).nodup_iff.mpr nodup

theorem inventoryRow_valid {rows next : Rows} {line : Bytes}
    (valid : ∀ row ∈ rows, namePattern row.1 = true)
    (parsed : inventoryRow rows line = .ok next) : ∀ row ∈ next, namePattern row.1 = true := by
  unfold inventoryRow at parsed
  split at parsed
  · cases parsed
    exact valid
  · split at parsed
    · split at parsed
      · cases parsed
      · split at parsed
        · cases parsed
        · split at parsed
          · cases parsed
          · cases parsed
          · cases parsed
            rename_i pattern _ _ _ _ _ _ _
            intro row member
            rcases List.mem_append.mp member with member | member
            · exact valid row member
            · rw [List.mem_singleton.mp member]
              exact not_not.mp pattern
    · cases parsed

/-- Every container that is listed has a name that can be printed. -/
theorem inventory_valid {data : Bytes} {all : List Name} {rows : Rows}
    (parsed : inventory data = .ok (all, rows)) : ∀ name ∈ all, namePattern name = true := by
  have valid : ∀ row ∈ rows, namePattern row.1 = true :=
    @inventory_invariant (fun rows => ∀ row ∈ rows, namePattern row.1 = true) data all rows
      (fun _ absent => nomatch absent) (fun _ _ _ valid row => inventoryRow_valid valid row) parsed
  rw [(inventory_rows parsed).2]
  intro name member
  rw [sortNames, List.mem_insertionSort] at member
  rcases List.mem_map.mp member with ⟨row, listed, same⟩
  exact same ▸ valid row listed

/-- Only a container with a row can be eligible. -/
theorem eligible_listed {data : Bytes} {all : List Name} {rows : Rows} {name : Name}
    (parsed : inventory data = .ok (all, rows)) (holds : eligible rows name = true) :
    name ∈ all := by
  rw [(inventory_rows parsed).2, sortNames, List.mem_insertionSort, List.mem_map]
  unfold eligible at holds
  cases found : rows.lookup name with
  | none =>
      rw [found] at holds
      cases holds
  | some o =>
      rcases List.lookup_eq_some_iff.mp found with ⟨before, after, same, _⟩
      exact ⟨(name, o), by simp [same], rfl⟩

/-- The unhealthy names are exactly those of the rows that are eligible. -/
theorem consistent_iff {data : Bytes} {unhealthy all : List Name} {rows : Rows}
    (parsed : inventory data = .ok (all, rows)) :
    consistent unhealthy all rows ↔ ∀ name, name ∈ unhealthy ↔ eligible rows name = true := by
  constructor
  · intro ⟨listed, each⟩ name
    constructor
    · exact fun member => (listed name member).2
    · intro holds
      have same := each name (eligible_listed parsed holds)
      rw [holds] at same
      exact of_decide_eq_true same.symm
  · intro agree
    refine ⟨fun name member => ?_, fun name _ => ?_⟩
    · have holds := (agree name).mp member
      exact ⟨eligible_listed parsed holds, holds⟩
    · rw [Bool.eq_iff_iff, decide_eq_true_eq]
      exact (agree name).symm

end Homelab.Watchdog
