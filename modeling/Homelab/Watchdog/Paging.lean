import Homelab.Watchdog.Budget
import Homelab.Watchdog.Stamp

/-! # When the operator is paged

Histories in which no scan is killed and files can be written. The stamp in a container's state
file is the time of the last urgent page of the current spell, whichever branch paged.
-/

namespace Homelab.Watchdog

open Effects ByteText

/-- What `ParseState` makes of a state file, or of its absence. -/
def recordedState : Option Bytes → Option State
  | none => some .zero
  | some content => (parseState content).toOption

/-- One step of the policy for one container, with what the operator hears of it. -/
inductive Answers (p : Plan) (now cooldown : Int) : List Bool → Bool → State → Prop
  | idle (other : p.action ≠ .restart) :
      Answers p now cooldown [] (decide (p.action = .budget) && p.notify) p.state
  | restarted (restart : p.action = .restart) :
      Answers p now cooldown [true] false (p.state.restarted now)
  | stamped (restart : p.action = .restart) (due : cooldown ≤ now - p.state.lastAlert) :
      Answers p now cooldown [false] true { p.state with lastAlert := now }
  | silent (restart : p.action = .restart) (early : ¬cooldown ≤ now - p.state.lastAlert) :
      Answers p now cooldown [false] false p.state

def pageCount (name : Name) (moments : List (Moment interface World)) : Nat :=
  moments.countP fun moment => moment.operation.pages name

theorem paged_of_pageCount {name : Name} {moments : List (Moment interface World)}
    {paged : Bool} (counted : pageCount name moments = paged.toNat) :
    Paged name moments ↔ paged = true := by
  have positive : Paged name moments ↔ 0 < pageCount name moments := List.countP_pos_iff.symm
  rw [positive, counted]
  cases paged <;> simp

/-- Whether the container was paged for, once, the results of its restarts, and its state
file. -/
structure Traced (name : Name) (paged : Bool) (results : List Bool) (file : Option Bytes)
    (past : Past interface World) (world : World) : Prop where
  paged : pageCount name past = paged.toNat
  results : commandResults name past = results
  file : world.legacy name = file

/-- The operation has nothing to do with the container. -/
def Operation.ignores (name : Name) : Operation → Bool
  | .restart other => other ≠ name
  | operation => operation.spares name

theorem Operation.publishes_ignores {name : Name} {operation : Operation}
    (publishes : operation.publishes = true) : operation.ignores name = true := by
  cases operation <;> first | rfl | cases publishes

theorem Operation.ignores_spares {name : Name} {operation : Operation}
    (ignores : operation.ignores name = true) : operation.spares name = true := by
  cases operation <;> first | exact ignores | rfl

theorem Operation.tends_ignores {name target : Name} {operation : Operation}
    (different : target ≠ name) (tends : operation.tends target = true) :
    operation.ignores name = true := by
  cases operation with
  | restart other =>
      have same : other = target := of_decide_eq_true tends
      simp [Operation.ignores, same, different]
  | _ => exact Operation.tends_spares different tends

theorem Traced.ignored {name : Name} {paged : Bool} {results : List Bool}
    {file : Option Bytes} {past : Past interface World} {world after : World}
    {operation : Operation} {answer : Answer operation}
    (traced : Traced name paged results file past world)
    (ignores : operation.ignores name = true)
    (step : system.Step world operation answer after) :
    Traced name paged results file (⟨world, operation, answer, after⟩ :: past) after := by
  have spares := Operation.ignores_spares ignores
  rw [Operation.spares, Bool.and_eq_true, Bool.not_eq_true'] at spares
  have noResult : commandResult name ⟨world, operation, answer, after⟩ = none := by
    cases operation with
    | restart other =>
        have different : other ≠ name := of_decide_eq_true ignores
        simp [commandResult, different]
    | _ => rfl
  refine ⟨?_, ?_, ?_⟩
  · rw [pageCount, List.countP_cons_of_neg (by simp [spares.2])]
    exact traced.paged
  · rw [commandResults, List.filterMap_cons_none noResult]
    exact traced.results
  · rw [system_legacy spares.1 step, traced.file]

section Container

variable {cfg : Config} {now : Int} {name : Name} {paged : Bool} {results : List Bool}
  {file : Option Bytes} {past : Past interface World} {world : World} {r : Result} {s : State}
  {c : Container} {scan : Scan} {α : Type}

theorem Traced.keeps :
    Keeps (system.restrict fun moment => Written moment ∧ Lists name moment)
      (fun operation : Operation => operation.ignores name = true) (fun _ _ => True)
      (Traced name paged results file) :=
  fun _ _ _ _ _ ignores step traced => ⟨trivial, traced.ignored ignores step.1⟩

/-- An action that cannot fail and has nothing to do with the container. -/
theorem Traced.surely {ends : α → Prop} {action : Go α}
    (surely : Surely name (fun _ _ _ => True) action past world)
    (leads : Attempt.Leads (fun operation : Operation => operation.ignores name = true) ends
      action) (traced : Traced name paged results file past world) :
    Surely name
      (fun later world result => Traced name paged results file later world ∧ ends result)
      action past world := by
  apply Guarded.mono (Attempt.both (leads.guarded Traced.keeps traced) surely)
    fun _ _ _ => trivial
  intro later world outcome holds
  cases outcome with
  | ok result => exact holds.1
  | error message => exact holds.2

/-! ## Actions that cannot fail -/

theorem publish_surely : Surely name (fun _ _ _ => True) (publish cfg r) past world := by
  apply Attempt.bind_iff.mpr
  intro answer after ⟨_, written, _⟩
  have succeeded : answer = Except.ok () := written
  subst succeeded
  refine ⟨trivial, ?_⟩
  intro answer after ⟨_, written, _⟩
  have succeeded : answer = Except.ok () := written
  subst succeeded
  exact ⟨trivial, trivial⟩

theorem saveLegacy_surely {target : Name} :
    Surely name (fun _ _ _ => True) (orFail cfg r (saveLegacy target s)) past world := by
  apply orFail_surely
  intro answer after ⟨_, written, _⟩
  have succeeded : answer = Except.ok () := written
  subst succeeded
  exact ⟨trivial, trivial⟩

theorem call_surely {operation : Operation} :
    Surely name (fun _ _ _ => True)
      (ExceptT.lift (.call operation .done) : Go (Answer operation)) past world :=
  Attempt.lift_iff.mpr fun _ _ _ => ⟨trivial, trivial⟩

theorem notify_surely {title priority tags body : Bytes} :
    Surely name (fun _ _ _ => True) (notify cfg r title priority tags body) past world := by
  apply Attempt.bind publish_surely
  intro _ _ _ _
  apply Attempt.bind call_surely
  intro _ _ _ _
  apply Attempt.bind publish_surely
  exact fun _ _ _ _ => trivial

theorem act_surely {p : Plan} {target : Name} :
    Surely name (fun _ _ _ => True) (act cfg now p r target c) past world := by
  unfold act
  split
  · apply Attempt.bind publish_surely
    intro _ _ _ _
    apply Attempt.bind call_surely
    intro _ _ answer _
    cases answer with
    | ok _ =>
        apply Attempt.bind saveLegacy_surely
        intro _ _ _ _
        apply Attempt.bind publish_surely
        intro _ _ _ _
        exact notify_surely
    | error message =>
        apply Attempt.bind saveLegacy_surely
        intro _ _ _ _
        apply Attempt.bind publish_surely
        intro _ _ _ _
        split
        · apply Attempt.bind saveLegacy_surely
          intro _ _ _ _
          exact notify_surely
        · trivial
  · split
    · exact notify_surely
    · trivial
  · trivial

theorem tend_surely {target : Name} :
    Surely name (fun _ _ _ => True) (tend cfg now scan r target) past world := by
  unfold tend
  split
  · apply Attempt.bind saveLegacy_surely
    intro _ _ _ _
    exact act_surely
  · exact act_surely

theorem tendAll_surely {names : List Name} :
    Surely name (fun _ _ _ => True) (tendAll cfg now scan r names) past world := by
  induction names generalizing past world r with
  | nil => trivial
  | cons head rest induction =>
      apply Attempt.bind tend_surely
      intro _ _ _ _
      exact induction

/-! ## The container itself -/

theorem publish_traced (traced : Traced name paged results file past world) :
    Surely name (fun later world _ => Traced name paged results file later world)
      (publish cfg r) past world := by
  apply surely_mono
    (traced.surely publish_surely (publish_leads fun _ => Operation.publishes_ignores))
  exact fun _ _ _ holds => holds.1

theorem saveLegacy_traced (traced : Traced name paged results file past world) :
    Surely name (fun later world _ => Traced name paged results (some s.bytes) later world)
      (orFail cfg r (saveLegacy name s)) past world := by
  apply orFail_surely
  intro answer after ⟨step, written, _⟩
  have succeeded : answer = Except.ok () := written
  subst succeeded
  refine ⟨trivial, ?_⟩
  cases step
  refine ⟨?_, traced.results, by simp⟩
  rw [pageCount, List.countP_cons_of_neg (by simp [Operation.pages])]
  exact traced.paged

theorem restartCommand_traced (traced : Traced name paged results file past world) :
    Surely name
      (fun later world answer =>
        Traced name paged (answer.isOk :: results) file later world)
      (restartCommand name) past world := by
  apply Attempt.lift_iff.mpr
  intro answer after ⟨step, _⟩
  refine ⟨trivial, ?_⟩
  have same : after = world := step
  subst same
  refine ⟨?_, ?_, traced.file⟩
  · rw [pageCount, List.countP_cons_of_neg (by simp [Operation.pages])]
    exact traced.paged
  · rw [← traced.results]
    simp [commandResults, commandResult]

theorem notify_traced {title priority tags body : Bytes}
    (pages : (Operation.notifyHelper title priority tags body).pages name = true)
    (traced : Traced name false results file past world) :
    Surely name (fun later world _ => Traced name true results file later world)
      (notify cfg r title priority tags body) past world := by
  apply Attempt.bind (publish_traced traced)
  intro past₁ world₁ _ traced₁
  apply Attempt.call_bind.mpr
  intro answer after ⟨step, _⟩
  refine ⟨trivial, ?_⟩
  have same : after = world₁ := step
  have told : Traced name true results file
      (⟨world₁, .notifyHelper title priority tags body, answer, after⟩ :: past₁) after := by
    refine ⟨?_, traced₁.results, same ▸ traced₁.file⟩
    have counted := congrArg Nat.succ traced₁.paged
    rw [pageCount, List.countP_cons_of_pos (by exact pages)]
    exact counted
  apply Attempt.bind (publish_traced told)
  exact fun _ _ _ traced => traced

theorem notify_quiet {title priority body : Bytes}
    (traced : Traced name paged results file past world) :
    Surely name (fun later world _ => Traced name paged results file later world)
      (notify cfg r title priority (ascii "wrench,docker") body) past world := by
  have leads : Attempt.Leads (fun operation : Operation => operation.ignores name = true)
      (fun last => last.containers = r.containers)
      (notify cfg r title priority (ascii "wrench,docker") body) := by
    apply notify_leads fun _ => Operation.publishes_ignores
    simp [Operation.ignores, Operation.spares, Operation.leaves, pages_restarted]
  apply surely_mono (traced.surely notify_surely leads)
  exact fun _ _ _ holds => holds.1

def Handled (name : Name) (p : Plan) (now cooldown : Int) (past : Past interface World)
    (world : World) : Prop :=
  ∃ paged results file last, Traced name paged results file past world ∧ Stored last file ∧
    Answers p now cooldown results paged last

theorem tendRestart_answers {p : Plan} (restart : p.action = .restart)
    (planned : c.state = p.state) (traced : Traced name false [] file past world) :
    Surely name (fun later world _ => Handled name p now cfg.cooldown later world)
      (tendRestart cfg now p.state r name c) past world := by
  apply Attempt.bind (publish_traced traced)
  intro past₁ world₁ _ traced₁
  apply Attempt.bind (restartCommand_traced traced₁)
  intro past₂ world₂ answer traced₂
  cases answer with
  | ok _ =>
      apply Attempt.bind (saveLegacy_traced traced₂)
      intro past₃ world₃ _ traced₃
      apply Attempt.bind (publish_traced traced₃)
      intro past₄ world₄ _ traced₄
      apply surely_mono (notify_quiet traced₄)
      intro past₅ world₅ _ traced₅
      refine ⟨_, _, _, _, traced₅, rfl, ?_⟩
      simp only [planned]
      exact .restarted restart
  | error message =>
      apply Attempt.bind (saveLegacy_traced traced₂)
      intro past₃ world₃ _ traced₃
      apply Attempt.bind (publish_traced traced₃)
      intro past₄ world₄ _ traced₄
      split
      · rename_i due
        apply Attempt.bind (saveLegacy_traced traced₄)
        intro past₅ world₅ _ traced₅
        apply surely_mono (notify_traced (by simp [Operation.pages]) traced₅)
        intro past₆ world₆ _ traced₆
        refine ⟨_, _, _, _, traced₆, rfl, ?_⟩
        simp only [planned] at due ⊢
        exact .stamped restart due
      · rename_i early
        refine ⟨_, _, _, _, traced₄, rfl, ?_⟩
        simp only [planned] at early ⊢
        exact .silent restart early

theorem act_answers {p : Plan} (planned : c.state = p.state) (stored : Stored c.state file)
    (traced : Traced name false [] file past world) :
    Surely name (fun later world _ => Handled name p now cfg.cooldown later world)
      (act cfg now p r name c) past world := by
  unfold act
  split
  · rename_i restart
    exact tendRestart_answers restart planned traced
  · rename_i budget
    have idle : Answers p now cfg.cooldown [] (decide (p.action = .budget) && p.notify)
        c.state := by
      rw [planned]
      exact .idle (by simp [budget])
    split
    · rename_i page
      simp only [budget, decide_true, page, Bool.and_self] at idle
      apply surely_mono (notify_traced (by simp [Operation.pages]) traced)
      intro past₁ world₁ _ traced₁
      exact ⟨_, _, _, _, traced₁, stored, idle⟩
    · rename_i quiet
      simp only [budget, decide_true, Bool.eq_false_iff.mpr quiet, Bool.and_false] at idle
      exact ⟨_, _, _, _, traced, stored, idle⟩
  · rename_i other budget
    have idle : Answers p now cfg.cooldown [] (decide (p.action = .budget) && p.notify)
        p.state := .idle (by simp_all)
    rw [decide_eq_false (by simp_all), Bool.false_and, ← planned] at idle
    exact ⟨_, _, _, _, traced, stored, idle⟩

theorem tend_answers (planned : (r.container name).state = (scan.plan cfg now name).state)
    (unsaved : scan.known name = false → scan.bad name = false →
      Stored (scan.plan cfg now name).state file)
    (traced : Traced name false [] file past world) :
    Surely name
      (fun later world _ => Handled name (scan.plan cfg now name) now cfg.cooldown later world)
      (tend cfg now scan r name) past world := by
  unfold tend
  split
  · apply Attempt.bind (saveLegacy_traced traced)
    intro past₁ world₁ _ traced₁
    have stored : Stored (r.container name).state (some (r.container name).state.bytes) := rfl
    exact act_answers planned stored traced₁
  · rename_i idle
    simp only [Bool.or_eq_true, not_or, Bool.not_eq_true] at idle
    rw [← planned] at unsaved
    exact act_answers planned (unsaved idle.1 idle.2) traced

theorem tendAll_answers {names : List Name} (member : name ∈ names) (nodup : names.Nodup)
    (planned : (r.container name).state = (scan.plan cfg now name).state)
    (unsaved : scan.known name = false → scan.bad name = false →
      Stored (scan.plan cfg now name).state file)
    (traced : Traced name false [] file past world) :
    Surely name
      (fun later world _ => Handled name (scan.plan cfg now name) now cfg.cooldown later world)
      (tendAll cfg now scan r names) past world := by
  induction names generalizing past world r with
  | nil => cases member
  | cons head rest induction =>
      rw [List.nodup_cons] at nodup
      by_cases equal : head = name
      · subst equal
        apply Attempt.bind (tend_answers planned unsaved traced)
        intro past₁ world₁ r₁ ⟨paged, results, file₁, last, traced₁, stored, answers⟩
        have others : Attempt.Leads
            (fun operation : Operation => operation.ignores head = true) _
            (tendAll cfg now scan r₁ rest) :=
          tendAll_leads fun other member operation tends => Operation.tends_ignores
            (fun same => nodup.1 (same ▸ member)) tends
        apply surely_mono (traced₁.surely tendAll_surely others)
        intro past₂ world₂ _ ⟨traced₂, _⟩
        exact ⟨paged, results, file₁, last, traced₂, stored, answers⟩
      · have later : name ∈ rest := List.mem_of_ne_of_mem (Ne.symm equal) member
        have leads : Attempt.Leads
            (fun operation : Operation => operation.ignores name = true) _
            (tend cfg now scan r head) :=
          tend_tends.mono (fun _ => Operation.tends_ignores equal) fun _ same => same
        apply Attempt.bind (traced.surely tend_surely leads)
        intro past₁ world₁ r₁ ⟨traced₁, same⟩
        exact induction later nodup.2 ((congrArg Container.state (same name equal)).trans planned)
          traced₁

/-! ## A whole scan -/

/-- The state file was read and settled in one step of the policy, with the health that was
published. -/
def Acted (cfg : Config) (now : Int) (name : Name) (original : Option Bytes)
    (past : Past interface World) (world : World) : Prop :=
  ∃ bad s, recordedState original = some s ∧
    (∃ r ∈ validatedLedgers past, (r.container name).unhealthy = bad) ∧
    Handled name (s.decide bad now cfg.threshold cfg.maxRestarts cfg.cooldown) now cfg.cooldown
      past world

/-- What was published before is still there. -/
theorem validatedLedgers_suffix {later : Past interface World} (suffix : past <:+ later)
    (member : r ∈ validatedLedgers past) : r ∈ validatedLedgers later := by
  rcases List.mem_filterMap.mp member with ⟨moment, happened, writes⟩
  exact List.mem_filterMap.mpr ⟨moment, suffix.subset happened, writes⟩

theorem publish_lists (readOk : r.dockerReadOk = true)
    (traced : Traced name paged results file past world) :
    Surely name
      (fun later world _ => Traced name paged results file later world ∧
        r ∈ validatedLedgers later ∧ name ∈ r.containers)
      (publish cfg r) past world := by
  apply Attempt.bind_iff.mpr
  rintro answer after ⟨step, written, lists⟩
  have succeeded : answer = Except.ok () := written
  subst succeeded
  have listed : name ∈ r.containers := lists r (by simp [validatedLedger, readOk])
  have shown : r ∈ validatedLedgers (⟨world, .writeLedger r, .ok (), after⟩ :: past) :=
    List.mem_filterMap.mpr
      ⟨_, List.mem_cons_self, by simp [validatedLedger, readOk]⟩
  have traced₁ := traced.ignored
    (show (Operation.writeLedger r).ignores name = true from rfl) step
  refine ⟨trivial, ?_⟩
  rintro answer last ⟨step, written, _⟩
  have succeeded : answer = Except.ok () := written
  subst succeeded
  have traced₂ := traced₁.ignored
    (show (Operation.writeTextfile r cfg.maxRestarts).ignores name = true from rfl) step
  exact ⟨trivial, traced₂, validatedLedgers_suffix (List.suffix_cons _ _) shown, listed⟩

theorem Scanned.recorded (scanned : Scanned name file scan) (member : name ∈ scan.all) :
    recordedState file = some (scan.state name) := by
  rw [Scan.state]
  cases lookup : scan.states.lookup name with
  | none => rw [scanned.readBack.complete member lookup, recordedState, Option.getD_none]
  | some found =>
      rcases scanned.readBack.recorded found lookup with ⟨content, present, parsed⟩
      rw [present, recordedState, parsed, Option.getD_some]
      rfl

theorem actOn_answers (scanned : Scanned name file scan) (stored : Stored s file)
    (natural : s.Natural) (traced : Traced name false [] file past world) :
    Watching name (fun later world _ => Acted cfg now name file later world)
      (fun later world _ => Acted cfg now name file later world)
      (actOn cfg now scan r) past world := by
  let first : Result :=
    { r with dockerReadOk := true, containers := observed cfg now scan r }
  apply Attempt.bind (Attempt.mono (publish_lists rfl traced) (fun _ _ _ holds => holds)
    fun _ _ _ impossible => impossible.elim)
  intro past₁ world₁ _ ⟨traced₁, shown, listed⟩
  have lookup := observed_lookup cfg now scan r name
  have member : name ∈ scan.all := by
    rw [← AList.lookup_isSome, lookup] at listed
    by_contra absent
    rw [if_neg absent] at listed
    cases listed
  have flagged : (first.container name).unhealthy = scan.bad name := by
    simp [first, Result.container, lookup, member, observe]
  have unsaved : scan.known name = false → scan.bad name = false →
      Stored (scan.plan cfg now name).state file := scanned.unsaved member stored natural
  have looped := tendAll_answers (r := first) member scanned.nodup (observed_planned member)
    unsaved traced₁
  apply Attempt.bind_iff.mpr
  apply Guarded.mono (Attempt.grows looped (List.suffix_refl past₁)) fun _ _ _ => trivial
  intro past₂ world₂ outcome holds
  cases outcome with
  | error message => exact holds.2.elim
  | ok r₂ =>
  rcases holds with ⟨suffix, paged, results, file₂, last, traced₂, stored₂, answers⟩
  have ignored : Attempt.Leads (fun operation : Operation => operation.ignores name = true)
      (fun _ => True)
      (do
        let files ← orFail cfg r₂ globStates
        collect cfg scan r₂ files
        publish cfg { r₂ with success := true }) := by
    have listing : Attempt.Leads (fun operation : Operation => operation.ignores name = true)
        (fun _ => True) (orFail cfg r₂ globStates) :=
      orFail_leads (fun _ => Operation.publishes_ignores) ⟨rfl, fun _ _ _ => trivial⟩
    apply listing.bind
    intro files _
    have removing (gone : Name) (absent : gone ∉ scan.all) :
        (Operation.removeState gone).ignores name = true := by
      have different : gone ≠ name := fun same => absent (same ▸ member)
      simp [Operation.ignores, Operation.spares, Operation.leaves, Operation.pages, different]
    apply (collect_leads (fun _ => Operation.publishes_ignores) removing).bind
    intro _ _
    exact publish_leads fun _ => Operation.publishes_ignores
  have keeps : Keeps (system.restrict fun moment => Written moment ∧ Lists name moment)
      (fun operation : Operation => operation.ignores name = true) (fun _ _ => True)
      fun past world => Traced name paged results file₂ past world ∧
        first ∈ validatedLedgers past :=
    fun _ _ _ _ _ ignores step holds => ⟨trivial, holds.1.ignored ignores step.1,
      validatedLedgers_suffix (List.suffix_cons _ _) holds.2⟩
  have acted (past : Past interface World) (world : World)
      (holds : Traced name paged results file₂ past world ∧ first ∈ validatedLedgers past) :
      Acted cfg now name file past world :=
    ⟨_, _, scanned.recorded member, ⟨first, holds.2, flagged⟩, paged, results, file₂, last,
      holds.1, stored₂, answers⟩
  apply Attempt.mono
    (ignored.guarded keeps ⟨traced₂, validatedLedgers_suffix suffix shown⟩)
  · exact fun past world _ holds => acted past world holds.1
  · exact fun past world _ holds => acted past world holds

/-- Nothing was published of the container, and nothing done about it. -/
structure Unread (name : Name) (file : Option Bytes) (past : Past interface World)
    (world : World) : Prop where
  traced : Traced name false [] file past world
  ledgers : validatedLedgers past = []

def Operation.unread (name : Name) : Operation → Bool
  | .writeLedger r => !r.dockerReadOk
  | operation => operation.ignores name

theorem Unread.keeps :
    Keeps (system.restrict fun moment => Written moment ∧ Lists name moment)
      (fun operation : Operation => operation.unread name = true) (fun _ _ => True)
      (Unread name file) := by
  intro past world operation answer after allowed step unread
  have ignores : operation.ignores name = true := by
    cases operation <;> first | exact allowed | rfl
  refine ⟨trivial, unread.traced.ignored ignores step.1, ?_⟩
  have silent : validatedLedger ⟨world, operation, answer, after⟩ = none := by
    cases operation with
    | writeLedger r =>
        have unread : r.dockerReadOk = false := by simpa [Operation.unread] using allowed
        simp [validatedLedger, unread]
    | _ => rfl
  rw [validatedLedgers, List.filterMap_cons_none silent]
  exact unread.ledgers

theorem execute_answers (stored : Stored s (world.legacy name)) (natural : s.Natural) :
    Watching name
      (fun later after _ => Unread name (world.legacy name) later after ∨
        Acted cfg now name (world.legacy name) later after)
      (fun later after _ => Unread name (world.legacy name) later after ∨
        Acted cfg now name (world.legacy name) later after)
      (execute cfg now) [] world := by
  have start : Unread name (world.legacy name) [] world :=
    ⟨⟨rfl, rfl, rfl⟩, rfl⟩
  apply Attempt.bind_iff.mpr
  apply Attempt.ofExcept_iff.mpr
  cases checkConfig cfg now with
  | error message => exact .inl start
  | ok _ =>
  apply Attempt.call_bind.mpr
  intro read after₁ step₁
  have unread₁ := (Unread.keeps [] world .readLedger read after₁ rfl step₁ start).2
  refine ⟨trivial, ?_⟩
  apply Attempt.bind_iff.mpr
  apply Attempt.ofExcept_iff.mpr
  cases acceptLedger read with
  | error message => exact .inl unread₁
  | ok previous =>
  apply Attempt.bind_iff.mpr
  intro answer after₂ step₂
  have unread₂ := (Unread.keeps _ after₁ .openLog answer after₂ rfl step₂ unread₁).2
  refine ⟨trivial, ?_⟩
  change Except String Unit at answer
  cases answer with
  | error message => exact .inl unread₂
  | ok _ =>
  let r : Result := { previous with lastRun := now, success := false, dockerReadOk := false }
  have publishing : Attempt.Within (fun operation : Operation => operation.unread name = true)
      (publish cfg r : Go Unit) :=
    Attempt.Within.bind ⟨rfl, fun _ => trivial⟩ fun _ => ⟨rfl, fun _ => trivial⟩
  have narrower : ∀ {world operation answer after},
      (system.restrict fun moment => Written moment ∧ Lists name moment).Step world operation
        answer after → system.Step world operation answer after := fun step => step.1
  have reading : Keeps (system.restrict fun moment => Written moment ∧ Lists name moment)
      (fun operation : Operation => operation.reads = true) (fun _ _ => True)
      (Unread name (world.legacy name)) := by
    apply Unread.keeps.mono
    intro operation reads
    cases operation <;> first | rfl | cases reads
  apply Attempt.bind_iff.mpr
  apply Attempt.bind_iff.mpr
  apply Attempt.outcome_iff.mpr
  apply Guarded.post_mono
    (readScan_reads narrower reading (fun unread => unread.traced.file) unread₂)
  intro past₃ world₃ outcome ends
  cases outcome with
  | ok scan =>
      apply Attempt.mono (actOn_answers ends.2 stored natural ends.1.traced)
      · exact fun _ _ _ acted => .inr acted
      · exact fun _ _ _ acted => .inr acted
  | error message =>
      apply Attempt.bind_iff.mpr
      apply Attempt.mono (publishing.guarded Unread.keeps ends)
      · exact fun _ _ _ unread => .inl unread
      · exact fun _ _ _ unread => .inl unread

end Container

/-! ## Runs -/

section Law

variable {s last : State} {unhealthy paged : Bool} {now threshold budget cooldown : Int}
  {results : List Bool}

/-- The stamp is the time of the page, or what it was in the same spell. -/
theorem Answers.lastAlert
    (answers : Answers (s.decide unhealthy now threshold budget cooldown) now cooldown results
      paged last) :
    last.lastAlert = if paged then now else if unhealthy then s.lastAlert else 0 := by
  cases answers with
  | idle other =>
      cases page : (decide ((s.decide unhealthy now threshold budget cooldown).action = .budget) &&
          (s.decide unhealthy now threshold budget cooldown).notify) with
      | true =>
          rw [Bool.and_eq_true] at page
          exact State.decide_stamp page.2
      | false =>
          apply State.decide_lastAlert
          simpa using page
  | restarted restart => exact State.decide_lastAlert (by simp [restart])
  | stamped => rfl
  | silent restart => exact State.decide_lastAlert (by simp [restart])

/-- Where a page is due, the cooldown alone decides. -/
theorem Answers.due
    (answers : Answers (s.decide unhealthy now threshold budget cooldown) now cooldown results
      paged last)
    (due : false ∈ results ∨
      (s.decide unhealthy now threshold budget cooldown).action = .budget) :
    unhealthy = true ∧ (paged = true ↔ cooldown ≤ now - s.lastAlert) := by
  have carried (restart : (s.decide unhealthy now threshold budget cooldown).action = .restart) :
      unhealthy = true ∧
        (s.decide unhealthy now threshold budget cooldown).state.lastAlert = s.lastAlert := by
    have sick := (State.decide_restart restart).1
    subst sick
    exact ⟨rfl, State.decide_lastAlert (by simp [restart])⟩
  cases answers with
  | idle other =>
      have exhausted : (s.decide unhealthy now threshold budget cooldown).action = .budget := by
        simpa using due
      have ⟨sick, page⟩ := State.decide_budget exhausted
      refine ⟨sick, ?_⟩
      rw [← page]
      simp [exhausted]
  | restarted restart => simp [restart] at due
  | stamped restart late =>
      have ⟨sick, same⟩ := carried restart
      rw [same] at late
      exact ⟨sick, iff_of_true rfl late⟩
  | silent restart early =>
      have ⟨sick, same⟩ := carried restart
      rw [same] at early
      exact ⟨sick, iff_of_false (by decide) early⟩

/-- Nobody is paged without need. -/
theorem Answers.page
    (answers : Answers (s.decide unhealthy now threshold budget cooldown) now cooldown results
      true last) :
    false ∈ results ∨ (s.decide unhealthy now threshold budget cooldown).action = .budget := by
  generalize plan : s.decide unhealthy now threshold budget cooldown = p at answers
  generalize told : true = heard at answers
  cases answers with
  | idle other =>
      right
      rw [eq_comm, Bool.and_eq_true, decide_eq_true_eq] at told
      exact told.1
  | restarted => cases told
  | stamped => exact .inl (List.mem_singleton_self _)
  | silent => cases told

end Law

theorem recordedState_stored {s found : State} {file : Option Bytes} (stored : Stored s file)
    (natural : s.Natural) (recorded : recordedState file = some found) : found = s := by
  cases file with
  | none =>
      have zero : s = .zero := stored
      rw [zero]
      exact (Option.some.inj recorded).symm
  | some content =>
      have written : content = s.bytes := stored
      cases parsed : parseState content with
      | error message =>
          rw [recordedState, parsed] at recorded
          cases recorded
      | ok read =>
          rw [recordedState, parsed] at recorded
          rw [written] at parsed
          rw [← Option.some.inj recorded]
          exact parseState_bytes natural parsed

theorem Answers.natural {p : Plan} {now cooldown : Int} {results : List Bool} {paged : Bool}
    {last : State} (answers : Answers p now cooldown results paged last)
    (natural : p.state.Natural) (started : 1 ≤ now) : last.Natural := by
  rcases natural with ⟨consecutive, restarts, lastRestart, lastAlert⟩
  cases answers with
  | idle => exact ⟨consecutive, restarts, lastRestart, lastAlert⟩
  | restarted => constructor <;> simp only [State.restarted] <;> omega
  | stamped => exact ⟨consecutive, restarts, lastRestart, by simp only; omega⟩
  | silent => exact ⟨consecutive, restarts, lastRestart, lastAlert⟩

theorem Answers.short {p : Plan} {now cooldown : Int} {results : List Bool} {paged : Bool}
    {last : State} (answers : Answers p now cooldown results paged last) :
    results.reverse = results := by
  cases answers <;> rfl

/-- When the scan of this run paged for the container, and what it left. -/
theorem run_answers {name : Name} {s : State} {run : ScanRun}
    (valid : run.Valid
      (system.restrict fun moment => Written moment ∧ Lists name moment)
      fun scan => (execute scan.1 scan.2).run)
    (completed : run.Completed) (stored : Stored s (run.before.legacy name))
    (natural : s.Natural) :
    (validated run = false ∧ pageCount name run.moments = 0 ∧
      commandResults name run.moments = [] ∧ Stored s (run.after.legacy name)) ∨
    ∃ unhealthy paged last, validated run = true ∧
      (∀ r ∈ validatedLedgers run.moments, (r.container name).unhealthy = unhealthy) ∧
      recordedState (run.before.legacy name) = some s ∧
      pageCount name run.moments = paged.toNat ∧
      Stored last (run.after.legacy name) ∧ last.Natural ∧
      Answers (s.decide unhealthy run.parameter.2 run.parameter.1.threshold
          run.parameter.1.maxRestarts run.parameter.1.cooldown)
        run.parameter.2 run.parameter.1.cooldown (commandResults name run.moments) paged
        last := by
  have settled := run_settles valid completed stored natural
  rcases Option.isSome_iff_exists.mp completed with ⟨value, returned⟩
  unfold Run.Valid at valid
  rw [returned] at valid
  have result := (execute_answers stored natural).result valid
  have ends : Unread name (run.before.legacy name) run.moments.reverse run.after ∨
      Acted run.parameter.1 run.parameter.2 name (run.before.legacy name) run.moments.reverse
        run.after := by
    rw [List.append_nil] at result
    cases value <;> exact result
  have forward : pageCount name run.moments.reverse = pageCount name run.moments :=
    List.countP_reverse
  have ledgers : validatedLedgers run.moments.reverse = (validatedLedgers run.moments).reverse := by
    rw [validatedLedgers, validatedLedgers, List.filterMap_reverse]
  have results : commandResults name run.moments.reverse =
      (commandResults name run.moments).reverse := by
    rw [commandResults, commandResults, List.filterMap_reverse]
  rcases ends with ⟨traced, silent⟩ |
    ⟨bad, found, recorded, ⟨r, shown, flag⟩, paged, given, file, last, traced, saved, answers⟩
  · left
    rw [ledgers, List.reverse_eq_nil_iff] at silent
    have given := traced.results
    rw [results, List.reverse_eq_nil_iff] at given
    refine ⟨by simp [validated, silent], forward.symm.trans traced.paged, given, ?_⟩
    · rw [traced.file]
      exact stored
  · right
    have same := recordedState_stored stored natural recorded
    subst same
    rw [ledgers, List.mem_reverse] at shown
    rcases settled with ⟨unread, _⟩ | ⟨unhealthy, _, started, read, observed, _, _⟩
    · have silent : validatedLedgers run.moments = [] := by simpa [validated] using unread
      rw [silent] at shown
      cases shown
    · have agrees : bad = unhealthy := flag.symm.trans (observed r shown)
      subst agrees
      have given := traced.results
      rw [results, List.reverse_eq_iff, answers.short] at given
      have nonnegative : 0 ≤ run.parameter.2 := by omega
      refine ⟨bad, paged, last, read, observed, recorded, forward.symm.trans traced.paged, ?_,
        answers.natural (State.decide_natural natural _ nonnegative _ _ _) started, ?_⟩
      · rw [traced.file]
        exact saved
      · rw [given]
        exact answers

/-! ## Spells -/

/-- The container was over its budget in this scan, or a restart of it failed. -/
def Due (name : Name) (run : ScanRun) : Prop :=
  false ∈ commandResults name run.moments ∨
    ∃ unhealthy s, validated run = true ∧
      (∀ r ∈ validatedLedgers run.moments, (r.container name).unhealthy = unhealthy) ∧
      recordedState (run.before.legacy name) = some s ∧
      (s.decide unhealthy run.parameter.2 run.parameter.1.threshold
        run.parameter.1.maxRestarts run.parameter.1.cooldown).action = .budget

/-- Every validated one of these scans found the container unhealthy. -/
def SameSpell (name : Name) (scans : List ScanRun) : Prop :=
  ∀ run ∈ scans, validated run = true → ObservedUnhealthy name run

/-- One of the scans paged for the container at this time, and the spell has not ended since. -/
def PagedAt (name : Name) (runs : List ScanRun) (time : Int) : Prop :=
  ∃ left earlier spell, runs = left ++ earlier :: spell ∧ SameSpell name (earlier :: spell) ∧
    Paged name earlier.moments ∧ earlier.parameter.2 = time

/-- The stamp is the time of the last page of the spell. -/
structure Stamps (name : Name) (runs : List ScanRun) (alert : Int) : Prop where
  latest : ∀ time, PagedAt name runs time → time ≤ alert
  paged : alert = 0 ∨ PagedAt name runs alert

section Spells

variable {name : Name} {runs : List ScanRun} {run : ScanRun} {alert time : Int}

theorem pagedAt_snoc :
    PagedAt name (runs ++ [run]) time ↔
      (validated run = true → ObservedUnhealthy name run) ∧
        (PagedAt name runs time ∨ Paged name run.moments ∧ run.parameter.2 = time) := by
  constructor
  · rintro ⟨left, earlier, spell, split, same, paged, at_time⟩
    rcases List.eq_nil_or_concat spell with rfl | ⟨spell, last, rfl⟩
    · have parts := List.append_inj' split rfl
      have equal : run = earlier := by simpa using parts.2
      subst equal
      exact ⟨same run List.mem_cons_self, .inr ⟨paged, at_time⟩⟩
    · rw [List.concat_eq_append, ← List.cons_append, ← List.append_assoc] at split
      have parts := List.append_inj' split rfl
      have equal : run = last := by simpa using parts.2
      subst equal
      refine ⟨same run (by simp), .inl ⟨left, earlier, spell, parts.1, ?_, paged, at_time⟩⟩
      intro scan member
      apply same scan
      rw [List.concat_eq_append, ← List.cons_append]
      exact List.mem_append_left _ member
  · rintro ⟨sick, ⟨left, earlier, spell, rfl, same, paged, at_time⟩ | ⟨paged, at_time⟩⟩
    · refine ⟨left, earlier, spell ++ [run], by simp, ?_, paged, at_time⟩
      intro scan member
      rw [← List.cons_append, List.mem_append, List.mem_singleton] at member
      rcases member with member | rfl
      · exact same scan member
      · exact sick
    · refine ⟨runs, run, [], rfl, ?_, paged, at_time⟩
      intro scan member
      rw [List.mem_singleton.mp member]
      exact sick

theorem stamps_start : Stamps name [] 0 := by
  refine ⟨?_, .inl rfl⟩
  rintro time ⟨left, earlier, spell, split, _⟩
  simp at split

/-- A page is the latest one. -/
theorem Stamps.page (stamps : Stamps name runs alert)
    (ordered : ∀ earlier ∈ runs, earlier.parameter.2 ≤ run.parameter.2)
    (paged : Paged name run.moments) (sick : ObservedUnhealthy name run) :
    Stamps name (runs ++ [run]) run.parameter.2 := by
  refine ⟨fun time at_time => ?_, .inr (pagedAt_snoc.mpr ⟨fun _ => sick, .inr ⟨paged, rfl⟩⟩)⟩
  rcases (pagedAt_snoc.mp at_time).2 with ⟨left, earlier, spell, rfl, _, _, rfl⟩ | ⟨_, rfl⟩
  · exact ordered earlier (by simp)
  · exact le_refl _

/-- Without a page the stamp stays as long as the spell does. -/
theorem Stamps.quiet (stamps : Stamps name runs alert) (silent : ¬Paged name run.moments)
    (sick : validated run = true → ObservedUnhealthy name run) :
    Stamps name (runs ++ [run]) alert := by
  have same (time : Int) : PagedAt name (runs ++ [run]) time ↔ PagedAt name runs time := by
    rw [pagedAt_snoc]
    constructor
    · rintro ⟨_, earlier | now⟩
      · exact earlier
      · exact absurd now.1 silent
    · exact fun earlier => ⟨sick, .inl earlier⟩
  constructor
  · simpa only [same] using stamps.latest
  · simpa only [same] using stamps.paged

/-- A container that is healthy again has no stamp. -/
theorem stamps_recovered (well : ¬(validated run = true → ObservedUnhealthy name run)) :
    Stamps name (runs ++ [run]) 0 :=
  ⟨fun _ at_time => absurd (pagedAt_snoc.mp at_time).1 well, .inl rfl⟩

end Spells

/-! ## Histories -/

section Histories

variable {name : Name} {initial final : World} {runs : List ScanRun}

/-- The state file remembers the last page of the spell. -/
theorem stamps_scans
    (history : History
      (system.restrict fun moment => Written moment ∧ Lists name moment)
      (fun scan : Config × Int => (execute scan.1 scan.2).run) initial runs final)
    (completed : ∀ run ∈ runs, run.Completed)
    (clocks : (runs.map fun run => run.parameter.2).Pairwise (· ≤ ·))
    (fresh : initial.legacy name = none) :
    ∃ s, s.Natural ∧ Stored s (final.legacy name) ∧ Stamps name runs s.lastAlert := by
  have kept := history.invariant
    (fun runs world => (runs.map fun run => run.parameter.2).Pairwise (· ≤ ·) →
      ∃ s, s.Natural ∧ Stored s (world.legacy name) ∧ Stamps name runs s.lastAlert)
    ?_ ?_ completed
  · exact kept clocks
  · intro _
    refine ⟨.zero, State.zero_natural, ?_, stamps_start⟩
    rw [fresh]
    rfl
  · intro runs run earlier valid completed clocks
    rw [List.map_append, List.pairwise_append] at clocks
    have ordered : ∀ earlier ∈ runs, earlier.parameter.2 ≤ run.parameter.2 := by
      intro earlier member
      exact clocks.2.2 _ (List.mem_map_of_mem member) _ (by simp)
    have ⟨s, natural, stored, stamps⟩ := earlier clocks.1
    rcases run_answers valid completed stored natural with
      ⟨unread, silent, _, stored'⟩ |
      ⟨unhealthy, paged, last, read, observed, _, counted, stored', natural', answers⟩
    · have none : Paged name run.moments ↔ false = true := paged_of_pageCount silent
      exact ⟨s, natural, stored', stamps.quiet (by simp [none])
        fun read => by simp [unread] at read⟩
    · have told := paged_of_pageCount counted
      refine ⟨last, natural', stored', ?_⟩
      rw [answers.lastAlert]
      cases paged with
      | true =>
          have sick := (answers.due answers.page).1
          subst sick
          rw [if_pos rfl]
          exact stamps.page ordered (told.mpr rfl) observed
      | false =>
          have silent : ¬Paged name run.moments := fun page => by simpa using told.mp page
          rw [if_neg (by decide)]
          cases unhealthy with
          | true => exact stamps.quiet silent fun _ => observed
          | false =>
              apply stamps_recovered
              intro sick
              have some : validatedLedgers run.moments ≠ [] := by simpa [validated] using read
              rcases List.exists_mem_of_ne_nil _ some with ⟨r, member⟩
              have flag := sick read r member
              rw [observed r member] at flag
              cases flag

/-- The urgent paging law: where the container is over its budget or its restart failed, it is
paged for if and only if no page in the same spell is younger than the cooldown; nothing else
pages, and no scan pages twice, and so two pages in one spell are a cooldown apart. -/
theorem urgent_paging (history : Scans initial runs final)
    (completed : ∀ run ∈ runs, run.Completed)
    (written : ∀ moment ∈ Run.momentsOf runs, Written moment)
    (listed : ∀ moment ∈ Run.momentsOf runs, Lists name moment)
    (clocks : (runs.map fun run => run.parameter.2).Pairwise (· ≤ ·))
    (late : ∀ run ∈ runs, run.parameter.1.cooldown ≤ run.parameter.2)
    (fresh : initial.legacy name = none) :
    ∀ before run after, runs = before ++ run :: after →
      pageCount name run.moments ≤ 1 ∧
      (Due name run → (Paged name run.moments ↔
        ¬∃ time, PagedAt name before time ∧
          run.parameter.2 - time < run.parameter.1.cooldown)) ∧
      (Paged name run.moments → Due name run) ∧
      ∀ time, Paged name run.moments → PagedAt name before time →
        run.parameter.1.cooldown ≤ run.parameter.2 - time := by
  intro before run after split
  subst split
  have narrow := history.restrict fun moment member =>
    And.intro (written moment member) (listed moment member)
  have ⟨earlier, valid⟩ := narrow.split
  rw [List.map_append, List.pairwise_append] at clocks
  rcases stamps_scans earlier (fun run member => completed run (by simp [member])) clocks.1
    fresh with ⟨s, natural, stored, stamps⟩
  have law : pageCount name run.moments ≤ 1 ∧ (Due name run → (Paged name run.moments ↔
      run.parameter.1.cooldown ≤ run.parameter.2 - s.lastAlert)) ∧
      (Paged name run.moments → Due name run) := by
    rcases run_answers valid (completed run (by simp)) stored natural with
      ⟨unread, silent, results, _⟩ |
      ⟨unhealthy, paged, last, read, observed, recorded, counted, _, _, answers⟩
    · have none : Paged name run.moments ↔ false = true := paged_of_pageCount silent
      refine ⟨by omega, fun due => ?_, fun page => by simp [none] at page⟩
      rcases due with failed | ⟨_, _, read, _⟩
      · simp [results] at failed
      · simp [unread] at read
    · have told := paged_of_pageCount counted
      refine ⟨counted ▸ Bool.toNat_le paged, fun due => ?_, fun page => ?_⟩
      · rw [told]
        refine (answers.due ?_).2
        rcases due with failed | ⟨flag, found, _, flagged, same, budget⟩
        · exact .inl failed
        · right
          have some : validatedLedgers run.moments ≠ [] := by simpa [validated] using read
          rcases List.exists_mem_of_ne_nil _ some with ⟨r, member⟩
          rw [recorded, Option.some.injEq] at same
          rw [← flagged r member, observed r member, ← same] at budget
          exact budget
      · have heard := told.mp page
        subst heard
        rcases answers.page with failed | budget
        · exact .inl failed
        · exact .inr ⟨unhealthy, s, read, observed, recorded, budget⟩
  have apart (page : Paged name run.moments) (time : Int) (at_time : PagedAt name before time) :
      run.parameter.1.cooldown ≤ run.parameter.2 - time := by
    have waited := (law.2.1 (law.2.2 page)).mp page
    have young := stamps.latest time at_time
    omega
  refine ⟨law.1, fun due => ⟨fun page => ?_, fun none => ?_⟩, law.2.2,
    fun time page => apart page time⟩
  · rintro ⟨time, at_time, young⟩
    have waited := apart page time at_time
    omega
  · rw [law.2.1 due]
    rcases stamps.paged with zero | at_time
    · have started := late run (by simp)
      omega
    · by_contra early
      exact none ⟨_, at_time, by omega⟩

/-- A host on which no container can be restarted. -/
def stubborn : Oracle interface World :=
  fun past world operation =>
    match operation with
    | .restart _ => (.error "exit status 1", world)
    | operation =>
        steadyHost [ascii "web"] (ascii "web\n") (ascii "web|running|unhealthy\n") past world
          operation

theorem stubborn_permitted : Permitted system stubborn := by
  intro past world operation
  cases operation with
  | restart name => rfl
  | _ =>
      exact steadyHost_permitted [ascii "web"] (ascii "web\n")
        (ascii "web|running|unhealthy\n") past world _

theorem stubborn_written (past : Past interface World) (world : World) (operation : Operation) :
    Written ⟨world, operation, (stubborn past world operation).1,
      (stubborn past world operation).2⟩ := by
  cases operation <;> trivial

def stubbornScan : ScanRun := hostScan stubborn samplePolicy 1000 .fresh

theorem urgent_paging_stubborn : Paged (ascii "web") stubbornScan.moments := by
  have history : Scans .fresh [stubbornScan] stubbornScan.after :=
    .next .start stubbornScan rfl (hostScan_valid stubborn_permitted _ _ _)
  have completed : ∀ run ∈ [stubbornScan], run.Completed := by
    intro run member
    rw [List.mem_singleton.mp member, Run.Completed]
    decide +kernel
  have written : ∀ moment ∈ Run.momentsOf [stubbornScan], Written moment := by
    rw [Run.momentsOf_singleton]
    exact simulate_each stubborn_written _ _ _ _
  have failed : Due (ascii "web") stubbornScan := by
    left
    decide +kernel
  have listed : ∀ moment ∈ Run.momentsOf [stubbornScan], Lists (ascii "web") moment := by
    decide +kernel
  have law := urgent_paging history completed written listed (by decide) (by decide) rfl []
    stubbornScan [] rfl
  rw [law.2.1 failed]
  rintro ⟨time, ⟨left, earlier, spell, split, _⟩, _⟩
  simp at split

end Histories

end Homelab.Watchdog
