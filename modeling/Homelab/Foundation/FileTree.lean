import Homelab.Foundation.Lines

/-! # Trees of files

Directories, files and symbolic links, and where a path leads. A path is followed from a
directory, name by name; a link is replaced by its target. Names that are not there are kept
as they are, as `os.path.realpath` keeps them.
-/

namespace Homelab.FileTree

open Text

/-- Where an entry stands: the names from the root to it, none of which is a link. -/
abbrev Location := List String

mutual
inductive Node
  | file (size : Nat)
  | link (target : String)
  | dir (entries : Entries)

inductive Entries
  | nil
  | cons (name : String) (node : Node) (rest : Entries)
end

inductive Kind
  | file (size : Nat)
  | link (target : String)
  | dir
deriving DecidableEq

namespace Entries

def find : Entries → String → Option Node
  | .nil, _ => none
  | .cons name node rest, wanted => if name = wanted then some node else rest.find wanted

def without : Entries → String → Entries
  | .nil, _ => .nil
  | .cons name node rest, unwanted =>
      if name = unwanted then rest.without unwanted
      else .cons name node (rest.without unwanted)

def modify (change : Node → Node) : Entries → String → Entries
  | .nil, _ => .nil
  | .cons name node rest, wanted =>
      .cons name (if name = wanted then change node else node) (rest.modify change wanted)

theorem find_without (name wanted : String) : (entries : Entries) →
    (entries.without name).find wanted = if wanted = name then none else entries.find wanted
  | .nil => by simp [without, find]
  | .cons first node rest => by
      have induction := find_without name wanted rest
      by_cases gone : first = name
      · by_cases same : wanted = name
        · simp only [without, if_pos gone, induction, if_pos same]
        · have other : first ≠ wanted := fun equal => same (equal.symm.trans gone)
          simp only [without, if_pos gone, induction, if_neg same, find, if_neg other]
      · by_cases found : first = wanted
        · have same : wanted ≠ name := found ▸ gone
          simp only [without, if_neg gone, find, if_pos found, if_neg same]
        · simp only [without, if_neg gone, find, if_neg found, induction]

theorem find_modify (change : Node → Node) (name wanted : String) : (entries : Entries) →
    (entries.modify change name).find wanted =
      if wanted = name then (entries.find wanted).map change else entries.find wanted
  | .nil => by simp [modify, find]
  | .cons first node rest => by
      have induction := find_modify change name wanted rest
      by_cases found : first = wanted
      · subst found
        by_cases same : first = name <;> simp [modify, find, same]
      · simp only [modify, find, if_neg found, induction]

end Entries

namespace Node

def kind : Node → Kind
  | .file size => .file size
  | .link target => .link target
  | .dir _ => .dir

def get (node : Node) : Location → Option Node
  | [] => some node
  | name :: rest =>
      match node with
      | .dir entries =>
          match entries.find name with
          | some child => child.get rest
          | none => none
      | _ => none

def kindAt (tree : Node) (location : Location) : Option Kind := (tree.get location).map kind

/-- The tree without the entry at a location, and without all that stands in it. -/
def erase (node : Node) : Location → Node
  | [] => node
  | [name] =>
      match node with
      | .dir entries => .dir (entries.without name)
      | node => node
  | name :: next :: rest =>
      match node with
      | .dir entries => .dir (entries.modify (fun child => child.erase (next :: rest)) name)
      | node => node

@[simp] theorem kind_erase (node : Node) (location : Location) :
    (node.erase location).kind = node.kind := by
  match location, node with
  | [], _ => rfl
  | [_], .file _ => rfl
  | [_], .link _ => rfl
  | [_], .dir _ => rfl
  | _ :: _ :: _, .file _ => rfl
  | _ :: _ :: _, .link _ => rfl
  | _ :: _ :: _, .dir _ => rfl

/-- Just the entry and what stands in it is gone. -/
theorem kindAt_erase {erased : Location} (some_ : erased ≠ []) (tree : Node)
    (location : Location) :
    (tree.erase erased).kindAt location =
      if erased <+: location then none else tree.kindAt location := by
  induction erased generalizing tree location with
  | nil => exact absurd rfl some_
  | cons name rest induction =>
      cases location with
      | nil => simp [kindAt, get]
      | cons first more =>
          cases tree with
          | file size => cases rest <;> simp [erase, kindAt, get]
          | link target => cases rest <;> simp [erase, kindAt, get]
          | dir entries =>
              cases rest with
              | nil =>
                  by_cases same : first = name
                  · simp [erase, kindAt, get, Entries.find_without, same]
                  · have other : name ≠ first := fun equal => same equal.symm
                    simp [erase, kindAt, get, Entries.find_without, same, other]
              | cons next rest =>
                  by_cases same : first = name
                  · subst same
                    cases found : entries.find first with
                    | none => simp [erase, kindAt, get, Entries.find_modify, found]
                    | some child =>
                        have below := induction (by simp) child more
                        simpa [erase, kindAt, get, Entries.find_modify, found,
                          List.cons_prefix_cons] using below
                  · have other : name ≠ first := fun equal => same equal.symm
                    simp [erase, kindAt, get, Entries.find_modify, same, other]

/-- What is gone stood at the erased place or below. -/
theorem below_erased {tree : Node} {erased location : Location} (some_ : erased ≠ [])
    (stood : tree.kindAt location ≠ none) (gone : (tree.erase erased).kindAt location = none) :
    erased <+: location := by
  rw [kindAt_erase some_] at gone
  by_contra above
  rw [if_neg above] at gone
  exact stood gone

theorem erased_gone {tree : Node} {erased : Location} (some_ : erased ≠ []) :
    (tree.erase erased).kindAt erased = none := by
  rw [kindAt_erase some_, if_pos List.prefix_rfl]

/-- What is gone after several removals stood at one of the erased places or below. -/
theorem below_one_erased {tree : Node} {lost : List Location} {location : Location}
    (some_ : ∀ erased ∈ lost, erased ≠ []) (stood : tree.kindAt location ≠ none)
    (gone : (lost.foldl erase tree).kindAt location = none) :
    ∃ erased ∈ lost, erased <+: location := by
  induction lost generalizing tree with
  | nil => exact absurd gone stood
  | cons first rest induction =>
      have firstSome := some_ first (by simp)
      by_cases now : (tree.erase first).kindAt location = none
      · exact ⟨first, by simp, below_erased firstSome stood now⟩
      · have later := induction (fun erased member => some_ erased (by simp [member])) now gone
        rcases later with ⟨erased, member, below⟩
        exact ⟨erased, by simp [member], below⟩

end Node

/-! ## Paths -/

def names (path : String) : List String :=
  ((splitChars '/' path.toList).map String.ofList).filter fun name => name ≠ "" ∧ name ≠ "."

def origin (cwd : Location) (path : String) : Location :=
  if path.toList.head? = some '/' then [] else cwd

/-- `os.path.join(root, name)`, for a name. -/
def join (root name : String) : String :=
  if root.toList.getLast? = some '/' then root ++ name else root ++ "/" ++ name

/-- The names followed up to the next link, which `onLink` follows. -/
def followWith (tree : Node) (onLink : Location → List String → Option Location) :
    Location → List String → Option Location
  | place, [] => some place
  | place, name :: rest =>
      if name = ".." then followWith tree onLink place.dropLast rest
      else
        match tree.kindAt (place ++ [name]) with
        | some (.link target) => onLink (origin place target) (names target ++ rest)
        | _ => followWith tree onLink (place ++ [name]) rest

def follow (tree : Node) : (links : Nat) → Location → List String → Option Location
  | 0 => followWith tree fun _ _ => none
  | links + 1 => followWith tree (follow tree links)

section

variable {tree : Node} {onLink better : Location → List String → Option Location}
  {place found : Location} {name : String} {rest path : List String}

theorem followWith_up : followWith tree onLink place (".." :: rest) =
    followWith tree onLink place.dropLast rest := by
  rw [followWith, if_pos rfl]

theorem followWith_link (down : name ≠ "..") {target : String}
    (link : tree.kindAt (place ++ [name]) = some (.link target)) :
    followWith tree onLink place (name :: rest) =
      onLink (origin place target) (names target ++ rest) := by
  simp only [followWith, if_neg down, link]

theorem followWith_name (down : name ≠ "..")
    (noLink : ∀ target, tree.kindAt (place ++ [name]) ≠ some (.link target)) :
    followWith tree onLink place (name :: rest) =
      followWith tree onLink (place ++ [name]) rest := by
  rw [followWith, if_neg down]
  split
  · exact absurd ‹_› (noLink _)
  · rfl

/-- The name at the head of a path goes up, names a link, or names something else. -/
theorem name_cases (tree : Node) (place : Location) (name : String) :
    name = ".." ∨ (name ≠ ".." ∧ ∃ target, tree.kindAt (place ++ [name]) = some (.link target)) ∨
      (name ≠ ".." ∧ ∀ target, tree.kindAt (place ++ [name]) ≠ some (.link target)) := by
  by_cases up : name = ".."
  · exact .inl up
  · by_cases link : ∃ target, tree.kindAt (place ++ [name]) = some (.link target)
    · exact .inr (.inl ⟨up, link⟩)
    · exact .inr (.inr ⟨up, not_exists.mp link⟩)

theorem followWith_mono
    (each : ∀ place path found, onLink place path = some found → better place path = some found)
    (leads : followWith tree onLink place path = some found) :
    followWith tree better place path = some found := by
  induction path generalizing place with
  | nil => exact leads
  | cons name rest induction =>
      rcases name_cases tree place name with up | ⟨down, target, link⟩ | ⟨down, noLink⟩
      · subst up
        rw [followWith_up] at leads ⊢
        exact induction leads
      · rw [followWith_link down link] at leads ⊢
        exact each _ _ _ leads
      · rw [followWith_name down noLink] at leads ⊢
        exact induction leads

/-- A last name that is no link leads to where it stands. -/
theorem followWith_last (down : name ≠ "..")
    (noLink : ∀ target, tree.kindAt (found ++ [name]) ≠ some (.link target))
    (each : ∀ place path, onLink place path = some found →
      better place (path ++ [name]) = some (found ++ [name]))
    (leads : followWith tree onLink place path = some found) :
    followWith tree better place (path ++ [name]) = some (found ++ [name]) := by
  induction path generalizing place with
  | nil =>
      have here : place = found := Option.some.inj leads
      subst here
      rw [List.nil_append, followWith_name down noLink, followWith]
  | cons first rest induction =>
      rw [List.cons_append]
      rcases name_cases tree place first with up | ⟨below, target, link⟩ | ⟨below, other⟩
      · subst up
        rw [followWith_up] at leads ⊢
        exact induction leads
      · rw [followWith_link below link] at leads ⊢
        rw [← List.append_assoc]
        exact each _ _ leads
      · rw [followWith_name below other] at leads ⊢
        exact induction leads

/-- More links do no harm. -/
theorem follow_succ {links : Nat} (leads : follow tree links place path = some found) :
    follow tree (links + 1) place path = some found := by
  induction links generalizing place path found with
  | zero => exact followWith_mono (fun _ _ _ impossible => by cases impossible) leads
  | succ links induction => exact followWith_mono (fun _ _ _ earlier => induction earlier) leads

theorem follow_more {links more : Nat} (fewer : links ≤ more)
    (leads : follow tree links place path = some found) :
    follow tree more place path = some found := by
  induction more, fewer using Nat.le_induction with
  | base => exact leads
  | succ more _ induction => exact follow_succ induction

theorem follow_last {links : Nat} (down : name ≠ "..")
    (noLink : ∀ target, tree.kindAt (found ++ [name]) ≠ some (.link target))
    (leads : follow tree links place path = some found) :
    follow tree links place (path ++ [name]) = some (found ++ [name]) := by
  induction links generalizing place path with
  | zero => exact followWith_last down noLink (fun _ _ impossible => by cases impossible) leads
  | succ links induction =>
      exact followWith_last down noLink (fun _ _ earlier => induction earlier) leads

end

/-- The path leads to the location, however many links it takes. -/
def Leads (tree : Node) (cwd : Location) (path : String) (found : Location) : Prop :=
  ∃ links, follow tree links (origin cwd path) (names path) = some found

theorem Leads.unique {tree : Node} {cwd one other : Location} {path : String}
    (leads : Leads tree cwd path one) (again : Leads tree cwd path other) : one = other := by
  rcases leads with ⟨links, first⟩
  rcases again with ⟨more, second⟩
  have both := follow_more (Nat.le_max_left links more) first
  rw [follow_more (Nat.le_max_right links more) second] at both
  exact (Option.some.inj both).symm

/-- The links that the kernel follows before it gives up. -/
def linkLimit : Nat := 40

def locate (tree : Node) (cwd : Location) (path : String) : Option Location :=
  match (names path).getLast? with
  | none => none
  | some name =>
      if name = ".." then none
      else (follow tree linkLimit (origin cwd path) (names path).dropLast).map (· ++ [name])

/-- An entry that is no link stands where its path leads. -/
theorem leads_of_locate {tree : Node} {cwd location : Location} {path : String}
    (located : locate tree cwd path = some location)
    (noLink : ∀ target, tree.kindAt location ≠ some (.link target)) :
    Leads tree cwd path location := by
  unfold locate at located
  split at located
  · cases located
  · rename_i name last
    split at located
    · cases located
    · rename_i down
      rcases Option.map_eq_some_iff.mp located with ⟨folder, leads, same⟩
      subst same
      have whole : names path = (names path).dropLast ++ [name] :=
        (List.dropLast_append_getLast? name last).symm
      refine ⟨linkLimit, ?_⟩
      rw [whole]
      exact follow_last down noLink leads

theorem locate_ne_nil {tree : Node} {cwd location : Location} {path : String}
    (located : locate tree cwd path = some location) : location ≠ [] := by
  unfold locate at located
  split at located
  · cases located
  · split at located
    · cases located
    · rcases Option.map_eq_some_iff.mp located with ⟨folder, _, same⟩
      subst same
      simp

end Homelab.FileTree
