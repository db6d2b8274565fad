import Homelab.Watchdog.Watch

/-! # What the container loop may ask for

Tending one container publishes, saves its own state file, restarts it, and notifies about it.
Titles and tags of the notifications tell which container they are about.
-/

namespace Homelab.Watchdog

open Effects ByteText

/-- The helper is called for an urgent page of the container. -/
def Operation.pages (name : Name) : Operation → Bool
  | .notifyHelper title _ tags _ =>
      (title = ascii "Watchdog: " ++ name ++ ascii " stuck unhealthy" &&
          tags = ascii "rotating_light,docker") ||
        (title = ascii "Watchdog: restart failed for " ++ name && tags = ascii "warning,docker")
  | _ => false

def Paged (name : Name) (moments : List (Moment interface World)) : Prop :=
  ∃ moment ∈ moments, moment.operation.pages name = true

def Operation.publishes : Operation → Bool
  | .writeLedger _ => true
  | .writeTextfile _ _ => true
  | _ => false

def Operation.notifies (name : Name) : Operation → Bool
  | .notifyHelper title priority tags body =>
      tags = ascii "wrench,docker" || (Operation.notifyHelper title priority tags body).pages name
  | _ => false

/-- Everything that is done about one container in the loop. -/
def Operation.tends (name : Name) : Operation → Bool
  | .writeState other _ => other = name
  | .restart other => other = name
  | operation => operation.publishes || operation.notifies name

theorem Operation.publishes_tends {name : Name} {operation : Operation}
    (publishes : operation.publishes = true) : operation.tends name = true := by
  cases operation <;> first | rfl | cases publishes

theorem paged_cons {name : Name} {past : Past interface World}
    {moment : Moment interface World} :
    Paged name (moment :: past) ↔ moment.operation.pages name = true ∨ Paged name past := by
  simp [Paged]

/-- A restart that worked is not paged for. -/
theorem pages_restarted (name : Name) {title priority body : Bytes} :
    (Operation.notifyHelper title priority (ascii "wrench,docker") body).pages name = false := by
  have budget : ascii "wrench,docker" ≠ ascii "rotating_light,docker" := by decide
  have failed : ascii "wrench,docker" ≠ ascii "warning,docker" := by decide
  simp [Operation.pages, budget, failed]

/-- A page is about one container. -/
theorem Operation.pages_unique {name other : Name} {operation : Operation}
    (pages : operation.pages name = true) (pagesOther : operation.pages other = true) :
    name = other := by
  cases operation with
  | notifyHelper title priority tags body =>
      have apart : ascii "rotating_light,docker" ≠ ascii "warning,docker" := by decide
      simp only [Operation.pages, Bool.or_eq_true, Bool.and_eq_true, decide_eq_true_eq] at *
      rcases pages with ⟨title₁, tags₁⟩ | ⟨title₁, tags₁⟩ <;>
        rcases pagesOther with ⟨title₂, tags₂⟩ | ⟨title₂, tags₂⟩
      · rw [title₁] at title₂
        simpa using title₂
      · exact absurd (tags₁.symm.trans tags₂) apart
      · exact absurd (tags₂.symm.trans tags₁) apart
      · rw [title₁] at title₂
        simpa using title₂
  | _ => cases pages

/-! ## Publishing -/

section Leading

variable {cfg : Config} {now : Int} {name target : Name} {r : Result} {s planned : State}
  {c : Container} {α : Type}

theorem publish_leads {allowed : Operation → Prop}
    (publishing : ∀ operation, operation.publishes = true → allowed operation) :
    Attempt.Leads allowed (fun _ => True) (publish cfg r : Go Unit) := by
  apply Attempt.Within.leads
  exact Attempt.Within.bind ⟨publishing _ rfl, fun _ => trivial⟩
    fun _ => ⟨publishing _ rfl, fun _ => trivial⟩

theorem orFail_leads {allowed : Operation → Prop} {action : Go α} {ends : α → Prop}
    (publishing : ∀ operation, operation.publishes = true → allowed operation)
    (leads : Attempt.Leads allowed ends action) :
    Attempt.Leads allowed ends (orFail cfg r action) := by
  apply leads.outcome.bind
  intro outcome holds
  cases outcome with
  | ok result => exact Attempt.leads_pure (holds result rfl)
  | error message =>
      apply (publish_leads publishing).bind
      intro _ _ other same
      cases same

theorem notify_leads {allowed : Operation → Prop} {title priority tags body : Bytes}
    (publishing : ∀ operation, operation.publishes = true → allowed operation)
    (notifying : allowed (.notifyHelper title priority tags body)) :
    Attempt.Leads allowed (fun last => last.containers = r.containers)
      (notify cfg r title priority tags body) := by
  apply (publish_leads publishing).bind
  intro _ _
  have command : Attempt.Leads allowed (fun _ => True)
      (notifyCommand title priority tags body) := ⟨notifying, fun _ _ _ => trivial⟩
  apply command.bind
  intro answer _
  cases answer with
  | ok _ => exact (publish_leads publishing).bind fun _ _ => Attempt.leads_pure rfl
  | error message => exact (publish_leads publishing).bind fun _ _ => Attempt.leads_pure rfl

/-! ## One container -/

/-- The action is about one container and returns what `ends` says. -/
abbrev Tending (name : Name) (ends : α → Prop) (action : Go α) : Prop :=
  Attempt.Leads (fun operation : Operation => operation.tends name = true) ends action

theorem publish_tends : Tending name (fun _ => True) (publish cfg r) :=
  publish_leads fun _ => Operation.publishes_tends

theorem saveLegacy_tends :
    Tending name (fun _ => True) (orFail cfg r (saveLegacy name s)) := by
  apply orFail_leads fun _ => Operation.publishes_tends
  exact ⟨decide_eq_true rfl, fun _ _ _ => trivial⟩

theorem notify_tends {title priority tags body : Bytes}
    (notifies : (Operation.notifyHelper title priority tags body).notifies name = true) :
    Tending name (fun last => last.containers = r.containers)
      (notify cfg r title priority tags body) :=
  notify_leads (fun _ => Operation.publishes_tends) notifies

/-- The containers that are not `name` are the same in both ledgers. -/
def Result.SameBut (name : Name) (r last : Result) : Prop :=
  ∀ other, name ≠ other → last.container other = r.container other

theorem Result.sameBut_set {c : Container} {counted : Result}
    (same : Result.SameBut name r counted) :
    Result.SameBut name r (counted.setContainer name c) := by
  intro other different
  rw [Result.container_setContainer_ne different]
  exact same other different

theorem Result.sameBut_of_containers {last : Result} (same : last.containers = r.containers) :
    Result.SameBut name r last := by
  intro other _
  rw [Result.container, Result.container, same]

theorem tendRestart_tends :
    Tending name (Result.SameBut name r) (tendRestart cfg now planned r name c) := by
  apply publish_tends.bind
  intro _ _
  have command : Tending name (fun _ => True) (restartCommand name) :=
    ⟨decide_eq_true rfl, fun _ _ _ => trivial⟩
  apply command.bind
  intro answer _
  cases answer with
  | ok _ =>
      apply saveLegacy_tends.bind
      intro _ _
      apply publish_tends.bind
      intro _ _
      apply (notify_tends (by simp [Operation.notifies])).mono fun _ holds => holds
      intro last same other different
      rw [Result.container, same]
      exact Result.sameBut_set (Result.sameBut_set fun _ _ => rfl) other different
  | error message =>
      apply saveLegacy_tends.bind
      intro _ _
      apply publish_tends.bind
      intro _ _
      split
      · apply saveLegacy_tends.bind
        intro _ _
        apply (notify_tends (by simp [Operation.notifies, Operation.pages])).mono
          fun _ holds => holds
        intro last same other different
        rw [Result.container, same]
        exact Result.sameBut_set (Result.sameBut_set (Result.sameBut_set fun _ _ => rfl))
          other different
      · exact Attempt.leads_pure (Result.sameBut_set (Result.sameBut_set fun _ _ => rfl))

theorem act_tends {p : Plan} :
    Tending name (Result.SameBut name r) (act cfg now p r name c) := by
  unfold act
  split
  · exact tendRestart_tends
  · split
    · exact (notify_tends (by simp [Operation.notifies, Operation.pages])).mono
        (fun _ holds => holds) fun _ => Result.sameBut_of_containers
    · exact Attempt.leads_pure fun _ _ => rfl
  · exact Attempt.leads_pure fun _ _ => rfl

theorem tend_tends {scan : Scan} :
    Tending name (Result.SameBut name r) (tend cfg now scan r name) := by
  unfold tend
  split
  · apply saveLegacy_tends.bind
    intro _ _
    exact act_tends
  · exact act_tends

/-! ## The loop and the removals -/

theorem observed_planned {scan : Scan} (member : name ∈ scan.all) :
    (Result.container
      { r with dockerReadOk := true, containers := observed cfg now scan r } name).state =
    (scan.plan cfg now name).state := by
  simp [Result.container, observed_lookup, member, observe]

theorem tendAll_leads {allowed : Operation → Prop} {scan : Scan} {names : List Name}
    (tending : ∀ name ∈ names, ∀ operation : Operation,
      operation.tends name = true → allowed operation) :
    Attempt.Leads allowed
      (fun last => ∀ other, other ∉ names → last.container other = r.container other)
      (tendAll cfg now scan r names) := by
  induction names generalizing r with
  | nil => exact Attempt.leads_pure fun _ _ => rfl
  | cons head rest induction =>
      apply (tend_tends.mono (tending head List.mem_cons_self) fun _ same => same).bind
      intro middle same
      apply (induction fun name member => tending name (List.mem_cons_of_mem _ member)).mono
        (fun _ holds => holds)
      intro last later other absent
      simp only [List.mem_cons, not_or] at absent
      rw [later other absent.2, same other (Ne.symm absent.1)]

theorem collect_leads {allowed : Operation → Prop} {scan : Scan} {files : List Name}
    (publishing : ∀ operation, operation.publishes = true → allowed operation)
    (removing : ∀ name, name ∉ scan.all → allowed (.removeState name)) :
    Attempt.Leads allowed (fun _ => True) (collect cfg scan r files) := by
  induction files with
  | nil => exact Attempt.leads_pure trivial
  | cons head rest induction =>
      unfold collect
      split
      · rename_i gone
        rw [Bool.and_eq_true, Bool.not_eq_true', decide_eq_false_iff_not] at gone
        have removed : Attempt.Leads allowed (fun _ => True) (orFail cfg r (removeState head)) :=
          orFail_leads publishing ⟨removing head gone.2, fun _ _ _ => trivial⟩
        exact removed.bind fun _ _ => induction
      · exact induction

end Leading

end Homelab.Watchdog
