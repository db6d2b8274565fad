import Homelab.Autodeploy.Planner
import Mathlib.Data.List.Lattice

/-! # The algebra of plans

The plan is the unfiltered plan without what the lists withhold, and the unfiltered plan is
read off the paths one by one. The orders and the set laws follow from that.
-/

namespace Homelab.Autodeploy

open Text

/-- A path as git prints it, without white space, and with no dot or slash in front. -/
structure Printed (path : String) : Prop where
  spaceless : Spaceless path
  bare : ∀ char ∈ path.toList.head?, char ≠ '.' ∧ char ≠ '/'

/-- No target comes before base, and only base comes before homelab-runtime. -/
def Ordered (targets : List String) : Prop :=
  targets.Pairwise fun earlier later =>
    later ≠ "base" ∧ (later = "homelab-runtime" → earlier = "base")

/-- The target of a path that is neither held back by the lists nor left out. -/
def plannedTarget (rules : Rules) (allow never : List String) (path : String) :
    Option String :=
  (pathTarget rules path).filter (Managed allow never)

def heldTarget (rules : Rules) (allow never : List String) (path : String) :
    Option String :=
  (pathTarget rules path).filter (¬Managed allow never ·)

/-- What the orchestrator relies on when it deploys a plan, reports what it holds, and
slices the plan after a failure. -/
structure PlanLaws (rules : Rules) (allow never changed : List String) : Prop where
  nodup : (planTargets rules allow never changed).Nodup
  allowed : ∀ target ∈ planTargets rules allow never changed, allow ≠ [] → target ∈ allow
  denied : ∀ target ∈ planTargets rules allow never changed, target ∉ never
  ordered : Ordered (planTargets rules allow never changed)
  disjoint : (planTargets rules allow never changed).Disjoint
    (planSkipped rules allow never changed)
  planned : (planTargets rules allow never changed).Sublist (planTargets rules [] [] changed)
  held : (planSkipped rules allow never changed).Sublist (planTargets rules [] [] changed)
  complete : (planTargets rules allow never changed ++
    planSkipped rules allow never changed).Perm (planTargets rules [] [] changed)
  union : ∀ target, target ∈ planTargets rules allow never changed ↔
    ∃ path ∈ changed, plannedTarget rules allow never path = some target
  heldUnion : ∀ target, target ∈ planSkipped rules allow never changed ↔
    ∃ path ∈ changed, heldTarget rules allow never path = some target
  invariant : ∀ others, (∀ path, path ∈ others ↔ path ∈ changed) → ∀ target,
    (target ∈ planTargets rules allow never others ↔
      target ∈ planTargets rules allow never changed) ∧
    (target ∈ planSkipped rules allow never others ↔
      target ∈ planSkipped rules allow never changed)
  monotone : ∀ more, (∀ path ∈ changed, path ∈ more) → ∀ target,
    (target ∈ planTargets rules allow never changed →
      target ∈ planTargets rules allow never more) ∧
    (target ∈ planSkipped rules allow never changed →
      target ∈ planSkipped rules allow never more)
  restored : ∀ front target rest,
    planTargets rules allow never changed = front ++ target :: rest →
      rollbackTargets (planTargets rules allow never changed) target = front ++ [target]
  unknown : ∀ target, strip target ∉ planTargets rules allow never changed →
    rollbackTargets (planTargets rules allow never changed) target =
      planTargets rules allow never changed

section

variable {rules : Rules} {allow never changed : List String} {target : String}

/-! ## The lists filter the plan -/

theorem planTargets_eq_filter : planTargets rules allow never changed =
    (planTargets rules [] [] changed).filter (Managed allow never) := by
  unfold planTargets Managed
  by_cases gated : allow = [] <;> by_cases denied : never = [] <;>
    simp [gated, denied, List.filter_filter, Bool.and_comm]

theorem planSkipped_eq_filter : planSkipped rules allow never changed =
    (planTargets rules [] [] changed).filter (¬Managed allow never ·) := by
  apply List.filter_congr
  intro target member
  have listed := (mem_planTargets.mp member).1
  simp [mem_planTargets, listed]

theorem planTargets_perm : (planTargets rules allow never changed ++
    planSkipped rules allow never changed).Perm (planTargets rules [] [] changed) := by
  rw [planTargets_eq_filter, planSkipped_eq_filter]
  have parts := List.filter_append_perm (fun target => Decidable.decide
    (Managed allow never target)) (planTargets rules [] [] changed)
  simpa using parts

/-! ## The order of a plan -/

theorem ordered_runtimeFirst {targets : List String} (apart : "base" ∉ targets) :
    Ordered (runtimeFirst targets) := by
  unfold runtimeFirst
  split
  · apply List.Pairwise.cons
    · intro later member
      rw [List.mem_filter] at member
      exact ⟨fun same => apart (same ▸ member.1), fun same => by simp [same] at member⟩
    · apply List.pairwise_of_forall_mem_list
      intro earlier _ later member
      rw [List.mem_filter] at member
      exact ⟨fun same => apart (same ▸ member.1), fun same => by simp [same] at member⟩
  · rename_i absent
    apply List.pairwise_of_forall_mem_list
    intro earlier _ later member
    exact ⟨fun same => apart (same ▸ member), fun same => absurd (same ▸ member) absent⟩

theorem ordered_planTargets : Ordered (planTargets rules allow never changed) := by
  have collected := plan_collected rules changed
  have apart : "base" ∉ (changed.foldl (planFile rules) ([], false)).1 := by
    rw [collected.targets]
    exact fun impossible => impossible.1 rfl
  have targets := ordered_runtimeFirst apart
  rw [planTargets_eq_filter]
  apply List.Pairwise.filter
  simp only [planTargets, if_true]
  split
  · apply List.Pairwise.cons _ targets
    intro later member
    rw [mem_runtimeFirst] at member
    exact ⟨fun same => apart (same ▸ member), fun _ => rfl⟩
  · exact targets

/-! ## The paths are read one by one -/

theorem Printed.fileTarget {path : String} (printed : Printed path) :
    fileTarget rules path = pathTarget rules path := by
  have bare : path.toList.dropWhile (fun char => ['.', '/'].contains char) =
      path.toList := by
    rw [List.dropWhile_eq_self_iff]
    intro long
    have first := printed.bare _ (List.head?_eq_some_head (List.ne_nil_of_length_pos long))
    simpa [List.head_eq_getElem] using first
  rw [Autodeploy.fileTarget, strip_spaceless printed.spaceless, lstrip, bare,
    String.ofList_toList]

theorem listed_iff (printed : ∀ path ∈ changed, Printed path) :
    Listed rules changed target ↔
      ∃ path ∈ changed, pathTarget rules path = some target := by
  simp only [Listed]
  constructor
  · rintro ⟨path, member, found⟩
    exact ⟨path, member, (printed path member).fileTarget ▸ found⟩
  · rintro ⟨path, member, found⟩
    exact ⟨path, member, (printed path member).fileTarget.trans found⟩

theorem Listed.mono {more : List String} (listed : Listed rules changed target)
    (longer : ∀ path ∈ changed, path ∈ more) : Listed rules more target := by
  rcases listed with ⟨path, member, found⟩
  exact ⟨path, longer path member, found⟩

theorem listed_congr {others : List String}
    (same : ∀ path, path ∈ others ↔ path ∈ changed) :
    Listed rules others target ↔ Listed rules changed target :=
  ⟨fun listed => listed.mono fun path => (same path).mp,
    fun listed => listed.mono fun path => (same path).mpr⟩

theorem mem_planTargets_iff (printed : ∀ path ∈ changed, Printed path) :
    target ∈ planTargets rules allow never changed ↔
      ∃ path ∈ changed, plannedTarget rules allow never path = some target := by
  simp only [mem_planTargets, listed_iff printed, plannedTarget, Option.filter_eq_some_iff,
    decide_eq_true_eq]
  grind

theorem mem_planSkipped_iff (printed : ∀ path ∈ changed, Printed path) :
    target ∈ planSkipped rules allow never changed ↔
      ∃ path ∈ changed, heldTarget rules allow never path = some target := by
  simp only [mem_planSkipped, listed_iff printed, heldTarget, Option.filter_eq_some_iff,
    decide_eq_true_eq]
  grind

/-! ## The plan is sliced -/

theorem planTargets_spaceless (words : ∀ entry ∈ rules.roleMap.entries, Spaceless entry.2)
    (printed : ∀ path ∈ changed, Printed path)
    (member : target ∈ planTargets rules allow never changed) :
    target ≠ "" ∧ Spaceless target := by
  have listed := (listed_iff printed).mp (mem_planTargets.mp member).1
  rcases listed with ⟨path, pathMember, found⟩
  exact pathTarget_inherits (inherited_spaceless words) (printed path pathMember).spaceless
    found

theorem rollbackTargets_known {front rest : List String}
    (plain : ∀ other ∈ front ++ target :: rest, other ≠ "") (spaceless : Spaceless target)
    (fresh : target ∉ front) :
    rollbackTargets (front ++ target :: rest) target = front ++ [target] := by
  have all : (front ++ target :: rest).filter (· ≠ "") = front ++ target :: rest :=
    List.filter_eq_self.mpr fun other member => by simpa using plain other member
  have place : (front ++ target :: rest).idxOf target = front.length := by
    rw [List.idxOf_append_of_notMem fresh, List.idxOf_cons_self, Nat.add_zero]
  have named : target ≠ "" := plain target (by simp)
  simp only [rollbackTargets, all, strip_spaceless spaceless, place]
  rw [if_neg (by simp [named])]
  simp [List.take_append, List.take_of_length_le]

theorem rollbackTargets_unknown {targets : List String}
    (plain : ∀ other ∈ targets, other ≠ "") (unknown : strip target ∉ targets) :
    rollbackTargets targets target = targets := by
  have all : targets.filter (· ≠ "") = targets :=
    List.filter_eq_self.mpr fun other member => by simpa using plain other member
  simp only [rollbackTargets, all]
  rw [if_pos (.inr unknown)]

end

/-- The laws hold of every diff that git prints, with every target map of single words. A
failed target is looked up without the blanks around its name. -/
theorem plan_algebra (rules : Rules) (allow never changed : List String)
    (words : ∀ entry ∈ rules.roleMap.entries, Spaceless entry.2)
    (printed : ∀ path ∈ changed, Printed path) : PlanLaws rules allow never changed := by
  have word : ∀ target ∈ planTargets rules allow never changed,
      target ≠ "" ∧ Spaceless target :=
    fun _ member => planTargets_spaceless words printed member
  have nodup : (planTargets rules allow never changed).Nodup := nodup_planTargets
  have managed : ∀ target ∈ planTargets rules allow never changed,
      Managed allow never target := fun _ member => (mem_planTargets.mp member).2
  constructor
  case nodup => exact nodup
  case allowed => exact fun target member gated => (managed target member).1.resolve_left gated
  case denied => exact fun target member => (managed target member).2
  case ordered => exact ordered_planTargets
  case disjoint =>
    intro target planned skipped
    exact (mem_planSkipped.mp skipped).2 (managed target planned)
  case planned =>
    rw [planTargets_eq_filter]
    exact List.filter_sublist
  case held => exact List.filter_sublist
  case complete => exact planTargets_perm
  case union => exact fun _ => mem_planTargets_iff printed
  case heldUnion => exact fun _ => mem_planSkipped_iff printed
  case invariant =>
    intro others same target
    simp only [mem_planTargets, mem_planSkipped, listed_congr same, and_self]
  case monotone =>
    intro more longer target
    simp only [mem_planTargets, mem_planSkipped]
    exact ⟨fun known => ⟨known.1.mono longer, known.2⟩,
      fun known => ⟨known.1.mono longer, known.2⟩⟩
  case restored =>
    intro front target rest split
    rw [split] at word nodup ⊢
    have fresh : target ∉ front := by
      intro member
      exact (List.nodup_append.mp nodup).2.2 target member target (by simp) rfl
    exact rollbackTargets_known (fun other member => (word other member).1)
      (word target (by simp)).2 fresh
  case unknown =>
    exact fun target absent => rollbackTargets_unknown (fun other member => (word other member).1)
      absent

/-- The laws of a diff that touches base, the runtime and a role. -/
theorem plan_algebra_mixed : PlanLaws ⟨⟨[("homepage", "home")], by simp [OneLine]⟩, ["common"]⟩
    [] ["base"] ["ansible/roles/homepage/tasks/main.yml", "runtime/go.mod",
      "ansible/roles/common/tasks/main.yml"] :=
  plan_algebra _ _ _ _ (by decide) (by
    simp only [List.forall_mem_cons, List.not_mem_nil, false_implies, implies_true, and_true]
    refine ⟨⟨?_, ?_⟩, ⟨?_, ?_⟩, ?_, ?_⟩ <;> decide)

/-- A failed target that is in the plan only without the blank before its name slices it. -/
theorem blank_name_slices : ∃ (rules : Rules) (changed : List String) (failed : String),
    (∀ entry ∈ rules.roleMap.entries, Spaceless entry.2) ∧
    (∀ path ∈ changed, Printed path) ∧
    failed ∉ planTargets rules [] [] changed ∧
    rollbackTargets (planTargets rules [] [] changed) failed ≠
      planTargets rules [] [] changed := by
  refine ⟨⟨⟨[], by simp⟩, []⟩, ["ansible/roles/a/x", "ansible/roles/b/x"], " a", by decide, ?_,
    by decide, by decide⟩
  simp only [List.forall_mem_cons, List.not_mem_nil, false_implies, implies_true, and_true]
  refine ⟨⟨?_, ?_⟩, ?_, ?_⟩ <;> decide

end Homelab.Autodeploy
