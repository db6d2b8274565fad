import Homelab.Watchdog.Legacy
import Homelab.Watchdog.Working

/-! # The scan refines the script

On a host where everything works, `Execute` and the script it took over from restart the same
containers and leave the same counters behind. They part in one place: a restart that failed is
paged for under the cooldown by the one and unconditionally by the other, so that only the one
keeps a stamp.
-/

namespace Homelab.Watchdog

open Effects ByteText

def Config.policy (cfg : Config) : Legacy.Policy :=
  ⟨cfg.threshold, cfg.maxRestarts, cfg.cooldown⟩

def Restarted (name : Name) (moments : List (Moment interface World)) : Prop :=
  ∃ moment ∈ moments, moment.operation = .restart name

/-- Both programs start from the same host: the same unhealthy containers, the same containers,
the same clock, the same outcomes of restarts, and the same well-formed state files. -/
structure Alike (docker : Docker) (now : Int) (start : World) (host : Legacy.Host)
    (files : AList fun _ : Name => Bytes) (unhealthy all : List Name) (rows : Rows) : Prop where
  lists : docker.Lists unhealthy all rows
  listing : host.unhealthy = docker.unhealthy
  printed : ∃ shown, docker.unhealthy = Legacy.printed shown ∧
    ∀ name ∈ shown, namePattern name = true
  existing : ∃ shown, host.existing = Legacy.printed shown ∧ ∀ name, name ∈ shown ↔ name ∈ all
  clock : host.now = now
  restarts : host.restarts = docker.restarts
  stored : ∀ name, start.legacy name = files.lookup name
  named : ∀ name content, files.lookup name = some content → namePattern name = true
  holds : ∀ name content, files.lookup name = some content → ∃ s, Legacy.Holds content s

/-- The state files that both programs leave of one container. -/
inductive Agree (failed : Prop) : Option Bytes → Option Bytes → Prop
  | absent : Agree failed none none
  | stored (own legacy : State) (naturalOwn : own.Natural) (naturalLegacy : legacy.Natural)
      (consecutive : own.consecutive = legacy.consecutive)
      (restarts : own.restarts = legacy.restarts)
      (lastRestart : own.lastRestart = legacy.lastRestart)
      (lastAlert : ¬failed → own.lastAlert = legacy.lastAlert) :
      Agree failed (some own.bytes) (some legacy.bytes)

/-! ## The unhealthy listing -/

theorem namePattern_plain {name : Name} (valid : namePattern name = true) :
    ∀ byte ∈ name, plain byte = true := by
  have heads : ∀ space ∈ spaces, ∀ head ∈ space.head?,
      (isAlphanumeric head || head = 95 || head = 46 || head = 45) = false := by decide +kernel
  intro byte member
  have letter := namePattern_letters valid byte member
  refine List.all_eq_true.mpr fun space listed => decide_eq_true fun same => ?_
  rw [heads space listed byte same] at letter
  cases letter

theorem fields_printed {shown : List Name} (valid : ∀ name ∈ shown, namePattern name = true) :
    fields (Legacy.printed shown) = shown := by
  induction shown with
  | nil => rfl
  | cons name rest induction =>
      have own := valid name List.mem_cons_self
      have shape : Legacy.printed (name :: rest) = name ++ 10 :: Legacy.printed rest := by
        simp [Legacy.printed]
      rw [shape, fields_line (namePattern_plain own) (Legacy.namePattern_visible own).1,
        induction fun other member => valid other (List.mem_cons_of_mem _ member)]

/-- `names` only sorts what is printed. -/
theorem names_printed {shown unhealthy : List Name}
    (valid : ∀ name ∈ shown, namePattern name = true)
    (accepted : names (Legacy.printed shown) = .ok unhealthy) :
    shown.Nodup ∧ ∀ name, name ∈ shown ↔ name ∈ unhealthy := by
  simp only [names, fields_printed valid] at accepted
  split at accepted
  · cases accepted
  · split at accepted
    · cases accepted
    · split at accepted
      · next holds =>
          cases accepted
          exact ⟨holds.2, fun name => (List.mem_insertionSort _).symm⟩
      · cases accepted

/-! ## One container -/

section Plans

variable {cfg : Config} {now : Int} {p : Plan} {restarts : Bool} {s : State}

theorem Plan.left_natural (natural : p.state.Natural) (started : 0 ≤ now) :
    (p.left cfg now restarts).Natural := by
  unfold Plan.left
  split
  · split
    · exact natural.restarted started
    · split
      · exact ⟨natural.consecutive, natural.restarts, natural.lastRestart, started⟩
      · exact natural
  · exact natural

theorem settled_natural (natural : p.state.Natural) (started : 0 ≤ now) :
    (Legacy.settled p now restarts).Natural := by
  rw [Legacy.settled]
  split
  · exact natural.restarted started
  · exact natural

/-- Only a failed restart is settled in another way. -/
theorem left_settled (worked : ¬(p.action = .restart ∧ restarts = false)) :
    p.left cfg now restarts = Legacy.settled p now restarts := by
  unfold Plan.left Legacy.settled
  cases action : p.action with
  | restart =>
      cases restarts with
      | true => simp
      | false => exact absurd ⟨action, rfl⟩ worked
  | _ => simp

/-- And it differs in the alert stamp alone. -/
theorem left_failed (restart : p.action = .restart) :
    ∃ lastAlert, p.left cfg now false =
      { Legacy.settled p now false with lastAlert := lastAlert } := by
  have settled : Legacy.settled p now false = p.state := by simp [Legacy.settled]
  rw [settled]
  by_cases due : cfg.cooldown ≤ now - p.state.lastAlert
  · exact ⟨now, by simp [Plan.left, restart, due]⟩
  · exact ⟨p.state.lastAlert, by simp [Plan.left, restart, due]⟩

theorem stateOf_natural (file : Option Bytes) : (stateOf file).Natural := by
  unfold stateOf
  split
  · exact State.zero_natural
  · split
    · next parsed => exact parseState_natural parsed
    · exact State.zero_natural

theorem fileAfter_agree {file : Option Bytes} {unhealthy : Bool} {failed : Prop}
    (started : 0 ≤ now)
    (failure : (cfg.planOf now file unhealthy).action = .restart → restarts = false → failed) :
    Agree failed (cfg.fileAfter now file unhealthy restarts)
      (Legacy.fileAfter cfg.policy now file unhealthy restarts) := by
  have same : Legacy.planOf cfg.policy now file unhealthy = cfg.planOf now file unhealthy := rfl
  rw [Config.fileAfter, Legacy.fileAfter, same]
  have natural : (cfg.planOf now file unhealthy).state.Natural :=
    State.decide_natural (stateOf_natural file) _ started _ _ _
  generalize cfg.planOf now file unhealthy = p at *
  split
  · by_cases lost : p.action = .restart ∧ restarts = false
    · have fails : failed := failure lost.1 lost.2
      rcases @left_failed cfg now p lost.1 with ⟨lastAlert, left⟩
      have natural₁ : (p.left cfg now restarts).Natural := Plan.left_natural natural started
      have natural₂ : (Legacy.settled p now restarts).Natural := settled_natural natural started
      rw [lost.2] at *
      rw [left] at *
      exact .stored _ _ natural₁ natural₂ rfl rfl rfl fun worked => absurd fails worked
    · rw [left_settled lost]
      have natural₂ : (Legacy.settled p now restarts).Natural := settled_natural natural started
      exact .stored _ _ natural₂ natural₂ rfl rfl rfl fun _ => rfl
  · exact .absent

end Plans

/-! ## A whole scan -/

section Scans

variable {cfg : Config} {now : Int} {docker : Docker} {start after : World} {host : Legacy.Host}
  {files : AList fun _ : Name => Bytes} {unhealthy all : List Name} {rows : Rows}
  {moments : List (Moment interface World)} {result : Except String Unit}

theorem Alike.proper (alike : Alike docker now start host files unhealthy all rows) :
    ∃ bad existing, Legacy.Proper host bad existing files ∧
      (∀ name, name ∈ bad ↔ name ∈ unhealthy) ∧ ∀ name, name ∈ existing ↔ name ∈ all := by
  rcases alike.printed with ⟨bad, printed, valid⟩
  rcases alike.existing with ⟨existing, shown, members⟩
  have accepted := alike.lists.bad
  rw [printed] at accepted
  have ⟨distinct, same⟩ := names_printed valid accepted
  have listed (name : Name) (member : name ∈ bad) : name ∈ existing :=
    (members name).mpr (alike.lists.agree.1 name ((same name).mp member)).1
  refine ⟨bad, existing, ?_, same, members⟩
  exact ⟨alike.listing.trans printed, shown, distinct, listed,
    fun name member => inventory_valid alike.lists.full name ((members name).mp member),
    alike.named, alike.holds⟩

theorem restarted_iff {name : Name} :
    Restarted name moments ↔ commandResults name moments.reverse ≠ [] := by
  rw [commandResults, List.filterMap_reverse, ne_eq, List.reverse_eq_nil_iff,
    List.filterMap_eq_nil_iff]
  constructor
  · rintro ⟨moment, member, restart⟩ silent
    have told := silent moment member
    rcases moment with ⟨before, operation, answer, later⟩
    cases restart
    simp [commandResult] at told
  · intro told
    by_contra absent
    refine told fun moment member => ?_
    rcases moment with ⟨before, operation, answer, later⟩
    cases operation with
    | restart other =>
        have different : other ≠ name := fun same => absent ⟨_, member, congrArg _ same⟩
        simp [commandResult, different]
    | _ => rfl

/-- What both programs leave behind, and what each of them leaves it to depend on. -/
structure Refines (cfg : Config) (now : Int) (docker : Docker) (start after : World)
    (unhealthy all : List Name) (moments : List (Moment interface World))
    (work : Legacy.Work) : Prop where
  restarted : ∀ name, Restarted name moments ↔ name ∈ work.restarted
  present : ∀ name, (after.legacy name).isSome = (work.file name).isSome
  agree : ∀ name ∈ all,
    Agree (Restarted name moments ∧ docker.restarts name = false) (after.legacy name)
      (work.file name)
  own : ∀ name, after.legacy name =
    if name ∈ all then
      cfg.fileAfter now (start.legacy name) (decide (name ∈ unhealthy)) (docker.restarts name)
    else none
  legacy : ∀ name, work.file name =
    if name ∈ all then
      Legacy.fileAfter cfg.policy now (start.legacy name) (decide (name ∈ unhealthy))
        (docker.restarts name)
    else none

theorem execute_refines (starts : Starts cfg now start)
    (alike : Alike docker now start host files unhealthy all rows)
    (executed : Executes (system.restrict (Works docker)) (execute cfg now).run start moments after
      (some result)) :
    result = .ok () ∧ ∃ work, Legacy.scan cfg.policy host files = some work ∧
      Refines cfg now docker start after unhealthy all moments work := by
  have readable : Readable start := by
    intro name content stored
    rw [alike.stored] at stored
    have ⟨s, holds⟩ := alike.holds name content stored
    exact ⟨s, holds.parse⟩
  have ended (name : Name) : result = .ok () ∧
      Ends docker cfg now unhealthy all start name (commandResults name moments.reverse)
        (after.legacy name) := by
    have holds :=
      (@execute_ends docker cfg now start _ _ _ name starts alike.lists readable).result executed
    rw [List.append_nil] at holds
    cases result with
    | ok _ => exact ⟨rfl, holds⟩
    | error message => exact holds.elim
  rcases alike.proper with ⟨bad, existing, proper, bads, members⟩
  have ⟨work, scanned, file, restarts⟩ := @Legacy.scan_law cfg.policy _ _ _ _ proper
  have started : 0 ≤ now := by
    have := checkConfig_started starts.config
    omega
  -- What the script is given of a container is what the scan is given of it.
  have flag (name : Name) : decide (name ∈ bad) = decide (name ∈ unhealthy) :=
    decide_eq_decide.mpr (bads name)
  have plan (name : Name) : Legacy.planOf cfg.policy host.now (files.lookup name) true =
      cfg.planOf now (start.legacy name) true := by
    rw [alike.clock, alike.stored]
    rfl
  have legacy (name : Name) : work.file name =
      if name ∈ all then
        Legacy.fileAfter cfg.policy now (start.legacy name) (decide (name ∈ unhealthy))
          (docker.restarts name)
      else none := by
    rw [file, flag, alike.clock, alike.restarts, alike.stored]
    simp only [members]
  have own (name : Name) : after.legacy name =
      if name ∈ all then
        cfg.fileAfter now (start.legacy name) (decide (name ∈ unhealthy)) (docker.restarts name)
      else none := by
    rw [(ended name).2.file]
    split
    · rfl
    · split
      · rfl
      · next invalid =>
          cases stored : start.legacy name with
          | none => rfl
          | some content =>
              rw [alike.stored] at stored
              exact absurd (alike.named name content stored) invalid
  have commanded (name : Name) : Restarted name moments ↔
      name ∈ unhealthy ∧ (cfg.planOf now (start.legacy name) true).action = .restart := by
    rw [restarted_iff, (ended name).2.results]
    constructor
    · intro issued
      split at issued
      · next planned =>
          have bad := (State.decide_restart planned.2).1
          rw [bad] at planned
          exact ⟨of_decide_eq_true bad, planned.2⟩
      · exact absurd rfl issued
    · intro ⟨member, planned⟩
      rw [if_pos ⟨(alike.lists.agree.1 name member).1,
        by rw [decide_eq_true member]; exact planned⟩]
      exact List.cons_ne_nil _ _
  have agree (name : Name) (member : name ∈ all) :
      Agree (Restarted name moments ∧ docker.restarts name = false) (after.legacy name)
        (work.file name) := by
    rw [own, legacy, if_pos member, if_pos member]
    apply fileAfter_agree started
    intro planned failed
    have bad := (State.decide_restart planned).1
    rw [bad] at planned
    exact ⟨(commanded name).mpr ⟨of_decide_eq_true bad, planned⟩, failed⟩
  refine ⟨(ended []).1, work, scanned, ?_, fun name => ?_, agree, own, legacy⟩
  · intro name
    rw [commanded, restarts, plan, bads]
  · by_cases member : name ∈ all
    · have both := agree name member
      generalize after.legacy name = left at both ⊢
      generalize work.file name = right at both ⊢
      cases both <;> rfl
    · rw [own, legacy, if_neg member, if_neg member]

end Scans

/-! ## One container that cannot be restarted -/

def downDocker : Docker :=
  ⟨ascii "web\n", ascii "web|running|unhealthy\n", fun _ => false⟩

def downHost : Legacy.Host :=
  ⟨ascii "web\n", ascii "web\n", 1000, fun _ => false⟩

theorem down_alike : Alike downDocker 1000 .fresh downHost ∅ [ascii "web"] [ascii "web"]
    [(ascii "web", ⟨.running, .unhealthy⟩)] where
  lists := ⟨by decide +kernel, by decide +kernel, by decide +kernel⟩
  listing := rfl
  printed := ⟨[ascii "web"], by decide, by decide⟩
  existing := ⟨[ascii "web"], by decide, fun _ => Iff.rfl⟩
  clock := rfl
  restarts := rfl
  stored _ := rfl
  named _ _ stored := nomatch stored
  holds _ _ stored := nomatch stored

theorem execute_refines_down : ∃ moments after result,
    Executes (system.restrict (Works downDocker)) (execute samplePolicy 1000).run .fresh moments
      after (some result) ∧
    result = .ok () ∧ ∃ work, Legacy.scan samplePolicy.policy downHost ∅ = some work ∧
      Refines samplePolicy 1000 downDocker .fresh after [ascii "web"] [ascii "web"] moments
        work := by
  have listable : Listable .fresh := ⟨[], by simp [World.fresh]⟩
  have ⟨moments, after, result, executed⟩ :=
    Executes.exists_of_replies (@works_replies downDocker) (execute samplePolicy 1000).run listable
  have starts : Starts samplePolicy 1000 .fresh := ⟨by decide +kernel, _, rfl⟩
  exact ⟨moments, after, result, executed, execute_refines starts down_alike executed⟩

/-- The scan turns down policies that the script works with. -/
theorem policy_not_refined : ¬∀ (cfg : Config) (now : Int) (docker : Docker) (start after : World)
    (host : Legacy.Host) (files : AList fun _ : Name => Bytes) (unhealthy all : List Name)
    (rows : Rows) (moments : List (Moment interface World)) (result : Except String Unit),
    Alike docker now start host files unhealthy all rows →
    Executes (system.restrict (Works docker)) (execute cfg now).run start moments after
      (some result) →
    ∃ work, Legacy.scan cfg.policy host files = some work ∧
      ∀ name, Restarted name moments ↔ name ∈ work.restarted := by
  intro refines
  let eager : Config := { samplePolicy with threshold := 0 }
  have rejected : (execute eager 1000).run = .done (.error "watchdog: invalid policy") := by
    have invalid : checkConfig eager 1000 = .error "watchdog: invalid policy" := by decide +kernel
    rw [execute, invalid]
    rfl
  have executed : Executes (system.restrict (Works downDocker)) (execute eager 1000).run .fresh []
      .fresh (some (.error "watchdog: invalid policy")) := by
    rw [rejected]
    exact .done _ _
  rcases refines _ _ _ _ _ _ _ _ _ _ _ _ down_alike executed with ⟨work, scanned, same⟩
  have restarted : (Legacy.scan eager.policy downHost ∅).map (·.restarted) =
      some [ascii "web"] := by decide +kernel
  rw [scanned, Option.map_some, Option.some.injEq] at restarted
  obtain ⟨moment, member, _⟩ :=
    (same (ascii "web")).mpr (by rw [restarted]; exact List.mem_cons_self)
  cases member

end Homelab.Watchdog
