import Homelab.Foundation.Text
import Mathlib.Data.List.Nodup

/-! # Which targets a change implies

`plan_targets` and its relatives from the decision module of the CD controller.
-/

namespace Homelab.Autodeploy

open Text

/-- `$ROLE_MAP`. A target is one word on the command line, so it is one line. -/
structure RoleMap where
  entries : List (String × String)
  oneLine : ∀ entry ∈ entries, OneLine entry.2

/-- What the planner is told about the repository: `$ROLE_MAP`, and the roles that
`$BASE_ROLES` lists. -/
structure Rules where
  roleMap : RoleMap
  baseRoles : List String

def extraFileTargets : List (String × String) :=
  [("CHANGELOG.md", "homepage"), ("scripts/go-source-id.py", "homelab-runtime")]

/-- `t and …`: the empty string stands for no target. -/
def nonempty (target : String) : Option String :=
  if target = "" then none else some target

def roleToTarget (rules : Rules) (role : String) : Option String :=
  if role ∈ rules.baseRoles then some "base"
  else
    match rules.roleMap.entries.lookup role with
    | some target => nonempty target
    | none => nonempty (replace '_' '-' role)

def playbookTarget (file : String) : Option String :=
  let name := dropLast 4 file
  -- Playbooks that only verify are never a target.
  if startsWith "verify-" name then none else nonempty name

def pathTarget (rules : Rules) (path : String) : Option String :=
  match extraFileTargets.lookup path with
  | some target => some target
  | none =>
      if startsWith "runtime/" path then some "homelab-runtime"
      else if startsWith "ansible/" path then
        match split '/' path with
        | _ :: kind :: name :: _ =>
            if kind = "roles" then roleToTarget rules name
            else if kind = "playbooks" ∧ endsWith ".yml" name then
              playbookTarget name
            else none
        | _ => none
      else none

/-- The target of a line of `git diff`, as the loop of `plan_targets` reads it. -/
def fileTarget (rules : Rules) (file : String) : Option String :=
  pathTarget rules (lstrip ['.', '/'] (strip file))

def planFile (rules : Rules) (planned : List String × Bool) (file : String) :
    List String × Bool :=
  match fileTarget rules file with
  | none => planned
  | some target =>
      if target = "base" then (planned.1, true)
      else if target ∈ planned.1 then planned
      else (planned.1 ++ [target], planned.2)

/-- The new binary is installed before the roles that run it. -/
def runtimeFirst (targets : List String) : List String :=
  if "homelab-runtime" ∈ targets then
    "homelab-runtime" :: targets.filter (· ≠ "homelab-runtime")
  else targets

def planTargets (rules : Rules) (allow never : List String)
    (changed : List String) : List String :=
  let planned := changed.foldl (planFile rules) ([], false)
  let targets := runtimeFirst planned.1
  let ordered := if planned.2 then "base" :: targets else targets
  let ordered := if allow = [] then ordered else ordered.filter (· ∈ allow)
  if never = [] then ordered else ordered.filter (· ∉ never)

def planSkipped (rules : Rules) (allow never : List String)
    (changed : List String) : List String :=
  let deployed := planTargets rules allow never changed
  (planTargets rules [] [] changed).filter (· ∉ deployed)

def rollbackTargets (allTargets : List String) (failedTarget : String) :
    List String :=
  let targets := allTargets.filter (· ≠ "")
  let failed := strip failedTarget
  if failed = "" ∨ failed ∉ targets then targets
  else targets.take (targets.idxOf failed + 1)

/-- The target is withheld neither by the allow list nor by the deny list. -/
def Managed (allow never : List String) (target : String) : Prop :=
  (allow = [] ∨ target ∈ allow) ∧ target ∉ never

instance (allow never : List String) (target : String) :
    Decidable (Managed allow never target) :=
  inferInstanceAs (Decidable (_ ∧ _))

def Listed (rules : Rules) (changed : List String) (target : String) : Prop :=
  ∃ file ∈ changed, fileTarget rules file = some target

section

variable {rules : Rules} {allow never changed : List String} {target : String}

/-! ## What the loop collects -/

structure Collected (rules : Rules) (changed : List String)
    (planned : List String × Bool) : Prop where
  targets : ∀ target, target ∈ planned.1 ↔ target ≠ "base" ∧
    Listed rules changed target
  base : planned.2 = true ↔ Listed rules changed "base"
  nodup : planned.1.Nodup

theorem listed_snoc (file : String) :
    Listed rules (changed ++ [file]) target ↔
      Listed rules changed target ∨ fileTarget rules file = some target := by
  simp only [Listed, List.mem_append, List.mem_singleton, or_and_right,
    exists_or, exists_eq_left]

theorem planFile_collected {planned : List String × Bool} (file : String)
    (collected : Collected rules changed planned) :
    Collected rules (changed ++ [file]) (planFile rules planned file) := by
  rcases collected with ⟨targets, base, nodup⟩
  unfold planFile
  cases found : fileTarget rules file with
  | none =>
      refine ⟨?_, ?_, nodup⟩
      · intro target
        simp [targets target, listed_snoc, found]
      · simp [base, listed_snoc, found]
  | some new =>
      by_cases isBase : new = "base"
      · subst isBase
        simp only [if_true]
        refine ⟨?_, ?_, nodup⟩
        · intro target
          rw [targets target, listed_snoc, found, Option.some.injEq]
          constructor
          · exact fun known => ⟨known.1, .inl known.2⟩
          · intro known
            refine ⟨known.1, known.2.resolve_right ?_⟩
            exact fun equal => known.1 equal.symm
        · simp [listed_snoc, found]
      · simp only [if_neg isBase]
        have baseSame : Listed rules (changed ++ [file]) "base" ↔
            Listed rules changed "base" := by
          simp [listed_snoc, found, isBase]
        by_cases known : new ∈ planned.1
        · rw [if_pos known]
          refine ⟨?_, base.trans baseSame.symm, nodup⟩
          intro target
          rw [targets target, listed_snoc, found, Option.some.injEq]
          constructor
          · exact fun known => ⟨known.1, .inl known.2⟩
          · intro here
            refine ⟨here.1, here.2.elim id ?_⟩
            intro equal
            rw [← equal]
            exact ((targets new).mp known).2
        · rw [if_neg known]
          refine ⟨?_, base.trans baseSame.symm, ?_⟩
          · intro target
            rw [List.mem_append, List.mem_singleton, targets target, listed_snoc,
              found, Option.some.injEq]
            constructor
            · rintro (⟨other, listed⟩ | rfl)
              · exact ⟨other, .inl listed⟩
              · exact ⟨isBase, .inr rfl⟩
            · rintro ⟨other, listed | equal⟩
              · exact .inl ⟨other, listed⟩
              · exact .inr equal.symm
          · rw [List.nodup_append]
            refine ⟨nodup, by simp, ?_⟩
            intro left leftMember right rightMember equal
            rw [List.mem_singleton.mp rightMember] at equal
            exact known (equal ▸ leftMember)

theorem plan_collected (rules : Rules) (changed : List String) :
    Collected rules changed (changed.foldl (planFile rules) ([], false)) := by
  have folded : ∀ (rest done : List String) planned, Collected rules done planned →
      Collected rules (done ++ rest) (rest.foldl (planFile rules) planned) := by
    intro rest
    induction rest with
    | nil => simp
    | cons file rest induction =>
        intro done planned collected
        have next := induction _ _ (planFile_collected file collected)
        simpa using next
  have start : Collected rules [] ([], false) := by
    constructor <;> simp [Listed]
  simpa using folded changed [] _ start

theorem mem_runtimeFirst {targets : List String} :
    target ∈ runtimeFirst targets ↔ target ∈ targets := by
  unfold runtimeFirst
  split
  · rename_i present
    by_cases same : target = "homelab-runtime"
    · simp [same, present]
    · simp [same]
  · exact Iff.rfl

theorem nodup_runtimeFirst {targets : List String} (nodup : targets.Nodup) :
    (runtimeFirst targets).Nodup := by
  unfold runtimeFirst
  split
  · rw [List.nodup_cons]
    exact ⟨by simp, nodup.filter _⟩
  · exact nodup

/-! ## What the planner answers -/

/-- A target is planned if a listed file stands for it and nothing withholds it. -/
theorem mem_planTargets : target ∈ planTargets rules allow never changed ↔
    Listed rules changed target ∧ Managed allow never target := by
  have collected := plan_collected rules changed
  have ordered : target ∈ (if (changed.foldl (planFile rules) ([], false)).2 then
      "base" :: runtimeFirst (changed.foldl (planFile rules) ([], false)).1
      else runtimeFirst (changed.foldl (planFile rules) ([], false)).1) ↔
        Listed rules changed target := by
    by_cases isBase : target = "base"
    · subst isBase
      rw [← collected.base]
      split <;> simp_all [mem_runtimeFirst, collected.targets]
    · split <;> simp [mem_runtimeFirst, collected.targets, isBase]
  unfold planTargets Managed
  by_cases gated : allow = [] <;> by_cases denied : never = [] <;>
    simp [gated, denied, ordered, and_comm]

/-- A target is reported as held if a listed file stands for it and something
withholds it. -/
theorem mem_planSkipped : target ∈ planSkipped rules allow never changed ↔
    Listed rules changed target ∧ ¬Managed allow never target := by
  simp only [planSkipped, List.mem_filter, mem_planTargets, decide_eq_true_eq,
    not_and]
  constructor
  · rintro ⟨⟨listed, _⟩, withheld⟩
    exact ⟨listed, withheld listed⟩
  · rintro ⟨listed, withheld⟩
    exact ⟨⟨listed, .inl rfl, by simp⟩, fun _ => withheld⟩

theorem nodup_planTargets : (planTargets rules allow never changed).Nodup := by
  have collected := plan_collected rules changed
  have targets := nodup_runtimeFirst collected.nodup
  have ordered : (if (changed.foldl (planFile rules) ([], false)).2 then
      "base" :: runtimeFirst (changed.foldl (planFile rules) ([], false)).1
      else runtimeFirst (changed.foldl (planFile rules) ([], false)).1).Nodup := by
    split
    · rw [List.nodup_cons, mem_runtimeFirst, collected.targets]
      exact ⟨fun impossible => impossible.1 rfl, targets⟩
    · exact targets
  unfold planTargets
  by_cases gated : allow = [] <;> by_cases denied : never = [] <;>
    simp only [gated, denied, if_true, if_false]
  · exact ordered
  · exact ordered.filter _
  · exact ordered.filter _
  · exact (ordered.filter _).filter _

/-! ## Every target is one word -/

theorem nonempty_eq_some {word : String} (found : nonempty word = some target) :
    target = word ∧ target ≠ "" := by
  unfold nonempty at found
  split at found
  · cases found
  · rename_i present
    cases found
    exact ⟨rfl, present⟩

private theorem mem_of_lookup {entries : List (String × String)} {key value : String}
    (found : entries.lookup key = some value) : (key, value) ∈ entries := by
  rcases List.lookup_eq_some_iff.mp found with ⟨before, after, rfl, _⟩
  simp

/-- A property that the planner's operations on names and paths keep. -/
structure Inherited (rules : Rules) (good : String → Prop) : Prop where
  mapped : ∀ entry ∈ rules.roleMap.entries, good entry.2
  fixed : ∀ target ∈ ["base", "homepage", "homelab-runtime"], good target
  replace : ∀ text, good text → good (replace '_' '-' text)
  dropLast : ∀ text, good text → good (dropLast 4 text)
  split : ∀ text piece, good text → piece ∈ split '/' text → good piece

section

variable {good : String → Prop} (inherited : Inherited rules good)

include inherited

theorem roleToTarget_inherits {role : String} (known : good role)
    (found : roleToTarget rules role = some target) : target ≠ "" ∧ good target := by
  unfold roleToTarget at found
  split at found
  · cases found
    exact ⟨by decide, inherited.fixed _ (by simp)⟩
  · split at found
    · rename_i mapped lookup
      rcases nonempty_eq_some found with ⟨rfl, present⟩
      exact ⟨present, inherited.mapped (role, target) (mem_of_lookup lookup)⟩
    · rcases nonempty_eq_some found with ⟨rfl, present⟩
      exact ⟨present, inherited.replace role known⟩

theorem pathTarget_inherits {path : String} (known : good path)
    (found : pathTarget rules path = some target) : target ≠ "" ∧ good target := by
  unfold pathTarget at found
  split at found
  · rename_i fixed lookup
    cases found
    have each : ∀ entry ∈ extraFileTargets,
        entry.2 ≠ "" ∧ entry.2 ∈ ["base", "homepage", "homelab-runtime"] := by decide
    have entry := each _ (mem_of_lookup lookup)
    exact ⟨entry.1, inherited.fixed _ entry.2⟩
  · split at found
    · cases found
      exact ⟨by decide, inherited.fixed _ (by simp)⟩
    · split at found
      · split at found
        · rename_i pieces
          have nameKnown : ∀ {name}, name ∈ split '/' path → good name :=
            fun member => inherited.split path _ known member
          rw [pieces] at nameKnown
          split at found
          · exact roleToTarget_inherits inherited (nameKnown (by simp)) found
          · split at found
            · unfold playbookTarget at found
              simp only at found
              split at found
              · cases found
              · rcases nonempty_eq_some found with ⟨rfl, present⟩
                exact ⟨present, inherited.dropLast _ (nameKnown (by simp))⟩
            · cases found
        · cases found
      · cases found

end

theorem inherited_oneLine : Inherited rules OneLine where
  mapped := rules.roleMap.oneLine
  fixed := by decide
  replace _ single := single.replace (by decide)
  dropLast _ single := single.dropLast 4
  split _ _ single member := single.split member

theorem inherited_spaceless (words : ∀ entry ∈ rules.roleMap.entries, Spaceless entry.2) :
    Inherited rules Spaceless where
  mapped := words
  fixed := by decide
  replace _ spaceless := spaceless.replace (by decide)
  dropLast _ spaceless := spaceless.dropLast 4
  split _ _ spaceless member := spaceless.split member

theorem planTargets_word (single : ∀ file ∈ changed, OneLine file)
    (member : target ∈ planTargets rules allow never changed) :
    target ≠ "" ∧ OneLine target := by
  rcases (mem_planTargets.mp member).1 with ⟨file, fileMember, found⟩
  exact pathTarget_inherits inherited_oneLine ((single file fileMember).strip.lstrip _) found

/-- The lines the shell reads back are the targets the planner answers. -/
theorem readLines_planTargets (single : ∀ file ∈ changed, OneLine file) :
    readLines (printLines (planTargets rules allow never changed)) =
      planTargets rules allow never changed :=
  readLines_printLines fun _ member => planTargets_word single member

theorem readLines_planSkipped (single : ∀ file ∈ changed, OneLine file) :
    readLines (printLines (planSkipped rules allow never changed)) =
      planSkipped rules allow never changed :=
  readLines_printLines fun _ member =>
    planTargets_word single (List.mem_filter.mp member).1

/-! ## What is restored -/

theorem rollbackTargets_sublist {targets : List String} {failed : String} :
    (rollbackTargets targets failed).Sublist targets := by
  simp only [rollbackTargets]
  split
  · exact List.filter_sublist
  · exact (List.take_sublist _ _).trans List.filter_sublist

/-- All that was tried is restored, unless the failed target's name without the
blanks around it is a target that came before. -/
theorem mem_rollbackTargets {tried rest : List String} {failed : String}
    (words : ∀ target ∈ tried ++ failed :: rest, target ≠ "")
    (apart : strip failed ∉ tried) :
    ∀ target ∈ failed :: tried,
      target ∈ rollbackTargets (tried ++ failed :: rest) failed := by
  intro target member
  have known : target ∈ tried ++ failed :: rest := by
    simp only [List.mem_cons, List.mem_append] at member ⊢
    tauto
  have all : (tried ++ failed :: rest).filter (· ≠ "") = tried ++ failed :: rest :=
    List.filter_eq_self.mpr fun target member => by simpa using words target member
  simp only [rollbackTargets, all]
  split
  · exact known
  · have later : (tried ++ failed :: rest).idxOf (strip failed) =
        tried.length + (failed :: rest).idxOf (strip failed) :=
      List.idxOf_append_of_notMem apart
    rw [later, List.take_append, List.mem_append]
    rcases List.mem_cons.mp member with same | earlier
    · right
      have more : tried.length + (failed :: rest).idxOf (strip failed) + 1 -
          tried.length = (failed :: rest).idxOf (strip failed) + 1 := by omega
      rw [more, List.take_succ_cons, same]
      exact List.mem_cons_self
    · left
      rw [List.take_of_length_le (by omega)]
      exact earlier

end

end Homelab.Autodeploy
