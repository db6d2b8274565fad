import Homelab.Effects.AtMost
import Homelab.Watchdog.Tend

/-! # Validation before action

A scan acts on containers only after it has read and validated everything, and it removes state
files only after it has processed every container that is present.
-/

namespace Homelab.Watchdog

open Effects ByteText

/-! ## What a scan must have seen -/

def Answered (operation : Operation) (answer : Answer operation)
    (past : Past interface World) : Prop :=
  ∃ before after, (⟨before, operation, answer, after⟩ : Moment interface World) ∈ past

/-- The state file of the container was absent, or parsed into the state that is listed. -/
def Inspected (states : List (Name × State)) (past : Past interface World) (name : Name) :
    Prop :=
  match states.lookup name with
  | none => Answered (.readState name) .notExist past
  | some s => ∃ content,
      Answered (.readState name) (.data content) past ∧ parseState content = .ok s

structure Validated (scan : Scan) (past : Past interface World) : Prop where
  unhealthy : ∃ data, Answered .psUnhealthy (.ok data) past ∧ names data = .ok scan.unhealthy
  present : ∃ data, Answered .psAll (.ok data) past ∧
    inventory data = .ok (scan.all, scan.rows)
  agree : ∀ name, name ∈ scan.unhealthy ↔ eligible scan.rows name = true
  states : ∀ name ∈ scan.all, Inspected scan.states past name

structure Processed (cfg : Config) (now : Int) (scan : Scan) (past : Past interface World)
    (name : Name) : Prop where
  saved : (scan.known name || scan.bad name) = true →
    Answered (.writeState name (scan.plan cfg now name).state.bytes) (.ok ()) past
  restarted : (scan.plan cfg now name).action = .restart →
    ∃ answer, Answered (.restart name) answer past
  paged : (scan.plan cfg now name).action = .budget →
    (scan.plan cfg now name).notify = true → Paged name past

/-- The operation does something to a container, to its state file or for its operator. -/
def Operation.acts : Operation → Bool
  | .restart _ => true
  | .notifyHelper _ _ _ _ => true
  | .writeState _ _ => true
  | .removeState _ => true
  | _ => false

def Operation.collects : Operation → Bool
  | .globStates => true
  | .removeState _ => true
  | _ => false

/-- The ledgers agree in every counter and every container. -/
def Result.SameEntries (previous r : Result) : Prop :=
  { r with
    lastRun := previous.lastRun, success := previous.success,
    dockerReadOk := previous.dockerReadOk } = previous

/-- The ledger file is as it was, or was published again with what it had. -/
def LedgerKept (before after : LedgerFile) : Prop :=
  after = before ∨ ∃ previous r, acceptLedger before.read = .ok previous ∧
    previous.SameEntries r ∧ after = .document r

/-- Of the state files that were there, those with a valid name that belong to nobody present
are gone, and no others. -/
def Collected (original : Name → Option Bytes) (scan : Scan) (world : World) : Prop :=
  ∀ name, (original name).isSome = true →
    (world.legacy name = none ↔ namePattern name = true ∧ name ∉ scan.all)

/-- The same of those only that `filepath.Glob` listed. -/
def Removed (original : Name → Option Bytes) (scan : Scan) (files : List Name)
    (world : World) : Prop :=
  ∀ name, (original name).isSome = true →
    (world.legacy name = none ↔ (namePattern name = true ∧ name ∉ scan.all) ∧ name ∈ files)

/-- `filepath.Glob` listed every state file that is to be removed. -/
def Listed (original : Name → Option Bytes) (scan : Scan) (files : List Name) : Prop :=
  ∀ name, (original name).isSome = true → namePattern name = true → name ∉ scan.all →
    name ∈ files

theorem Removed.collected_iff {original : Name → Option Bytes} {scan : Scan}
    {files : List Name} {world : World} (removed : Removed original scan files world) :
    Collected original scan world ↔ Listed original scan files := by
  constructor
  · intro collected name is valid absent
    exact ((removed name is).mp ((collected name is).mpr ⟨valid, absent⟩)).2
  · intro listed name is
    rw [removed name is]
    exact and_iff_left_of_imp fun gone => listed name is gone.1 gone.2

/-! ## What was seen stays seen -/

section Past

variable {past later : Past interface World} {scan : Scan} {name : Name}

theorem Answered.mono {operation : Operation} {answer : Answer operation}
    (answered : Answered operation answer past) (subset : past ⊆ later) :
    Answered operation answer later := by
  rcases answered with ⟨before, after, member⟩
  exact ⟨before, after, subset member⟩

theorem Paged.mono (paged : Paged name past) (subset : past ⊆ later) : Paged name later := by
  rcases paged with ⟨moment, member, pages⟩
  exact ⟨moment, subset member, pages⟩

theorem Inspected.mono {states : List (Name × State)} (inspected : Inspected states past name)
    (subset : past ⊆ later) : Inspected states later name := by
  unfold Inspected at *
  split at *
  · exact inspected.mono subset
  · rcases inspected with ⟨content, answered, parsed⟩
    exact ⟨content, answered.mono subset, parsed⟩

theorem Validated.mono (validated : Validated scan past) (subset : past ⊆ later) :
    Validated scan later := by
  rcases validated with ⟨⟨u, unhealthy, first⟩, ⟨a, present, second⟩, agree, states⟩
  exact ⟨⟨u, unhealthy.mono subset, first⟩, ⟨a, present.mono subset, second⟩, agree,
    fun name member => (states name member).mono subset⟩

theorem Processed.mono {cfg : Config} {now : Int} (processed : Processed cfg now scan past name)
    (subset : past ⊆ later) : Processed cfg now scan later name := by
  refine ⟨fun due => (processed.saved due).mono subset, fun due => ?_, fun due page => ?_⟩
  · rcases processed.restarted due with ⟨answer, answered⟩
    exact ⟨answer, answered.mono subset⟩
  · exact (processed.paged due page).mono subset

end Past

/-! ## Reading and validating -/

section Reading

variable {good : Past interface World → Moment interface World → Prop}
  {inv : Past interface World → World → Prop} {past : Past interface World} {world : World}

theorem readStates_inspects {names : List Name}
    (keeps : Keeps system (fun operation : Operation => operation.reads = true) good inv)
    (start : inv past world) :
    Attempt.Guarded system good
      (fun later world states => inv later world ∧ past <:+ later ∧
        (∀ name ∈ names, Inspected states later name) ∧
        ∀ name, name ∉ names → states.lookup name = none)
      (fun later world _ => inv later world) (readStates names) past world := by
  induction names generalizing past world with
  | nil => exact ⟨start, List.suffix_refl past, by simp, by simp⟩
  | cons head rest induction =>
      rw [readStates, readState, Attempt.call_bind]
      intro answer after step
      rcases keeps past world (.readState head) answer after rfl step start with ⟨now, next⟩
      have here : Answered (.readState head) answer
          (⟨world, .readState head, answer, after⟩ :: past) :=
        ⟨world, after, List.mem_cons_self⟩
      refine ⟨now, ?_⟩
      change StateRead at answer
      cases answer with
      | failed message => exact next
      | notExist =>
          apply Attempt.result_mono (induction next)
          rintro later world₂ states ⟨holds, suffix, inspected, others⟩
          refine ⟨holds, (List.suffix_cons _ _).trans suffix, fun name member => ?_,
            fun name absent => others name fun member => absent (List.mem_cons_of_mem _ member)⟩
          by_cases again : name ∈ rest
          · exact inspected name again
          · have equal : name = head := by simpa [again] using member
            rw [Inspected, others name again, equal]
            exact here.mono suffix.subset
      | data content =>
          apply Attempt.bind_iff.mpr
          apply Attempt.ofExcept_iff.mpr
          cases parsed : parseState content with
          | error message => exact next
          | ok s =>
              apply Attempt.bind_iff.mpr
              apply Attempt.result_mono (induction next)
              rintro later world₂ states ⟨holds, suffix, inspected, others⟩
              refine ⟨holds, (List.suffix_cons _ _).trans suffix, fun name member => ?_,
                fun name absent => ?_⟩
              · by_cases equal : name = head
                · rw [equal, Inspected, List.lookup_cons_self]
                  exact ⟨content, here.mono suffix.subset, parsed⟩
                · have found := inspected name (List.mem_of_ne_of_mem equal member)
                  rw [Inspected, List.lookup_cons, beq_false_of_ne equal]
                  exact found
              · rw [List.mem_cons, not_or] at absent
                rw [List.lookup_cons, beq_false_of_ne absent.1]
                exact others name absent.2

/-- A scan that is returned has passed every check. -/
theorem readScan_validates
    (keeps : Keeps system (fun operation : Operation => operation.reads = true) good inv)
    (start : inv past world) :
    Attempt.Guarded system good
      (fun later world scan => inv later world ∧ Validated scan later)
      (fun later world _ => inv later world) readScan past world := by
  rw [readScan, psUnhealthy, Attempt.call_bind]
  intro first after₁ step₁
  rcases keeps _ _ _ _ _ rfl step₁ start with ⟨now₁, holds₁⟩
  refine ⟨now₁, ?_⟩
  apply Attempt.bind_iff.mpr
  apply Attempt.ofExcept_iff.mpr
  change Except String Bytes at first
  cases first with
  | error message => exact holds₁
  | ok u =>
  simp only [namedError, Attempt.Ends]
  rw [psAll, Attempt.call_bind]
  intro second after₂ step₂
  rcases keeps _ _ _ _ _ rfl step₂ holds₁ with ⟨now₂, holds₂⟩
  refine ⟨now₂, ?_⟩
  apply Attempt.bind_iff.mpr
  apply Attempt.ofExcept_iff.mpr
  change Except String Bytes at second
  cases second with
  | error message => exact holds₂
  | ok a =>
  apply Attempt.bind_iff.mpr
  apply Attempt.ofExcept_iff.mpr
  cases namesRead : names u with
  | error message => exact holds₂
  | ok unhealthy =>
  apply Attempt.bind_iff.mpr
  apply Attempt.ofExcept_iff.mpr
  cases listed : inventory a with
  | error message => exact holds₂
  | ok inventoried =>
  rcases inventoried with ⟨all, rows⟩
  simp only [Attempt.Ends]
  split
  · rename_i agree
    apply Attempt.bind (readStates_inspects keeps holds₂)
    rintro later world₃ states ⟨holds₃, suffix, inspected, _⟩
    refine ⟨holds₃, ⟨u, ?_, namesRead⟩, ⟨a, ?_, listed⟩, (consistent_iff listed).mp agree,
      inspected⟩
    · refine Answered.mono ⟨world, after₁, ?_⟩ suffix.subset
      simp
    · refine Answered.mono ⟨after₁, after₂, ?_⟩ suffix.subset
      simp
  · exact holds₂

end Reading

/-! ## Before the checks are passed -/

/-- What the scan may do before the checks are passed: read, and publish what the ledger had. -/
def Operation.Early (before : World) : Operation → Prop
  | .writeLedger r => ∃ previous, acceptLedger before.ledger.read = .ok previous ∧
      previous.SameEntries r
  | .globStates => False
  | operation => operation.acts = false

theorem Operation.Early.calm {before : World} {operation : Operation}
    (early : operation.Early before) : operation.acts = false ∧ operation.collects = false := by
  cases operation <;> simp_all [Operation.Early, Operation.acts, Operation.collects]

structure Untouched (before world : World) : Prop where
  legacy : world.legacy = before.legacy
  ledger : LedgerKept before.ledger world.ledger

theorem Untouched.early {before world after : World} {operation : Operation}
    {answer : Answer operation} (untouched : Untouched before world)
    (early : operation.Early before) (step : system.Step world operation answer after) :
    Untouched before after := by
  cases operation with
  | writeLedger r =>
      change Except String Unit at answer
      cases answer with
      | error message =>
          have same : after = world := step
          exact same ▸ untouched
      | ok _ =>
          rcases early with ⟨previous, accepted, same⟩
          cases step
          exact ⟨untouched.legacy, .inr ⟨previous, r, accepted, same, rfl⟩⟩
  | readLedger => exact step.1 ▸ untouched
  | readState name => exact step.1 ▸ untouched
  | globStates => exact early.elim
  | openLog => exact (show after = world from step) ▸ untouched
  | psUnhealthy => exact (show after = world from step) ▸ untouched
  | psAll => exact (show after = world from step) ▸ untouched
  | writeTextfile r budget => exact (show after = world from step) ▸ untouched
  | _ => cases early

/-- Everything in order so far: acts come after validation, removals after all the rest. -/
structure Orderly (cfg : Config) (now : Int) (past : Past interface World)
    (moment : Moment interface World) : Prop where
  acts : moment.operation.acts = true → ∃ scan, Validated scan past
  collects : moment.operation.collects = true →
    ∃ scan, Validated scan past ∧ ∀ name ∈ scan.all, Processed cfg now scan past name

/-- The checks are passed, or nothing has been touched. -/
def Careful (before : World) (past : Past interface World) (world : World) : Prop :=
  (∃ scan, Validated scan past) ∨ Untouched before world

theorem Untouched.keeps {cfg : Config} {now : Int} {before : World} :
    Keeps system (Operation.Early before)
      (fun past moment => Orderly cfg now past moment ∧
        Careful before (moment :: past) moment.after)
      fun _ world => Untouched before world := by
  intro past world operation answer after early step untouched
  have next := untouched.early early step
  have ⟨quiet, keeping⟩ := early.calm
  refine ⟨⟨⟨fun acts => ?_, fun collects => ?_⟩, .inr next⟩, next⟩
  · rw [quiet] at acts
    cases acts
  · rw [keeping] at collects
    cases collects

/-! ## Processing the containers -/

section Processing

variable {cfg : Config} {now : Int} {scan : Scan} {name : Name} {r : Result} {s planned : State}
  {c : Container} {past : Past interface World} {world : World}

/-- A piece of the scan, as far as it leads to a result. -/
abbrev Reaches {α : Type} (post : Past interface World → World → α → Prop) (action : Go α)
    (past : Past interface World) (world : World) : Prop :=
  Attempt.Guarded system (fun _ _ => True) post (fun _ _ _ => True) action past world

theorem Reaches.both {α : Type} {post post' : Past interface World → World → α → Prop}
    {action : Go α} (first : Reaches post action past world)
    (second : Reaches post' action past world) :
    Reaches (fun later world result => post later world result ∧ post' later world result)
      action past world := by
  apply Guarded.mono (Attempt.both first second) fun _ _ _ => trivial
  intro later world outcome holds
  cases outcome with
  | ok result => exact holds
  | error message => trivial

theorem Reaches.guarded {α : Type} {post : Past interface World → World → α → Prop}
    {ends : α → Prop} {allowed : Operation → Prop} {action : Go α}
    {good : Past interface World → Moment interface World → Prop}
    {inv : Past interface World → World → Prop} (reaches : Reaches post action past world)
    (leads : Attempt.Leads allowed ends action) (keeps : Keeps system allowed good inv)
    (start : inv past world) :
    Attempt.Guarded system good
      (fun later world result => inv later world ∧ post later world result)
      (fun _ _ _ => True) action past world := by
  apply Guarded.mono (Attempt.both (leads.guarded keeps start) reaches)
    fun _ _ holds => holds.1
  intro later world outcome holds
  cases outcome with
  | ok result => exact ⟨holds.1.1, holds.2⟩
  | error message => trivial

theorem saveLegacy_answered :
    Reaches (fun later _ _ => Answered (.writeState name s.bytes) (.ok ()) later)
      (orFail cfg r (saveLegacy name s)) past world := by
  apply Attempt.bind_iff.mpr
  apply Attempt.outcome_iff.mpr
  intro answer after step
  refine ⟨trivial, ?_⟩
  change Except String Unit at answer
  cases answer with
  | ok _ => exact ⟨world, after, List.mem_cons_self⟩
  | error message =>
      apply Attempt.bind Attempt.guarded_any
      exact fun _ _ _ _ => trivial

theorem notify_pages {title priority tags body : Bytes}
    (pages : (Operation.notifyHelper title priority tags body).pages name = true) :
    Reaches (fun later _ _ => Paged name later) (notify cfg r title priority tags body)
      past world := by
  apply Attempt.bind Attempt.guarded_any
  intro past₁ world₁ _ _
  apply Attempt.call_bind.mpr
  intro answer after step
  refine ⟨trivial, ?_⟩
  apply Attempt.result_mono Attempt.suffix_after
  intro later world₂ last suffix
  exact Paged.mono (paged_cons.mpr (.inl pages)) suffix.subset

theorem tendRestart_restarts :
    Reaches (fun later _ _ => ∃ answer, Answered (.restart name) answer later)
      (tendRestart cfg now planned r name c) past world := by
  apply Attempt.bind Attempt.guarded_any
  intro past₁ world₁ _ _
  apply Attempt.call_bind.mpr
  intro answer after step
  refine ⟨trivial, ?_⟩
  apply Attempt.result_mono Attempt.suffix_after
  intro later world₂ last suffix
  exact ⟨answer, Answered.mono ⟨world₁, after, List.mem_cons_self⟩ suffix.subset⟩

theorem act_processes {p : Plan} :
    Reaches (fun later _ _ =>
        (p.action = .restart → ∃ answer, Answered (.restart name) answer later) ∧
        (p.action = .budget → p.notify = true → Paged name later))
      (act cfg now p r name c) past world := by
  unfold act
  split
  · rename_i restart
    apply Attempt.result_mono tendRestart_restarts
    intro later world₁ last restarted
    exact ⟨fun _ => restarted, by simp [restart]⟩
  · rename_i budget
    split
    · have pages : Reaches (fun later _ _ => Paged name later)
          (notify cfg r (ascii "Watchdog: " ++ name ++ ascii " stuck unhealthy")
            (ascii "urgent") (ascii "rotating_light,docker") (budgetBody cfg c.state))
          past world := notify_pages (by simp [Operation.pages])
      apply Attempt.result_mono pages
      intro later world₁ last paged
      exact ⟨by simp [budget], fun _ _ => paged⟩
    · rename_i quiet
      exact ⟨by simp [budget], fun _ page => absurd page quiet⟩
  · rename_i other
    exact ⟨fun restart => by simp_all, fun budget => by simp_all⟩

theorem tend_processes (planned : (r.container name).state = (scan.plan cfg now name).state) :
    Reaches (fun later _ _ => Processed cfg now scan later name) (tend cfg now scan r name)
      past world := by
  unfold tend
  split
  · apply Attempt.bind saveLegacy_answered
    intro past₁ world₁ _ saved
    rw [planned] at saved
    apply Attempt.result_mono (Reaches.both Attempt.suffix_after act_processes)
    intro later world₂ last ⟨suffix, restarted, paged⟩
    exact ⟨fun _ => saved.mono suffix.subset, restarted, paged⟩
  · rename_i unsaved
    apply Attempt.result_mono act_processes
    intro later world₁ last ⟨restarted, paged⟩
    exact ⟨fun due => absurd due unsaved, restarted, paged⟩

theorem tendAll_processes {names : List Name} (nodup : names.Nodup)
    (planned : ∀ name ∈ names, (r.container name).state = (scan.plan cfg now name).state) :
    Reaches (fun later _ _ => ∀ name ∈ names, Processed cfg now scan later name)
      (tendAll cfg now scan r names) past world := by
  induction names generalizing past world r with
  | nil => simp [tendAll, Attempt.pure_iff]
  | cons head rest induction =>
      rw [List.nodup_cons] at nodup
      have others : Reaches (fun _ _ last => Result.SameBut head r last)
          (tend cfg now scan r head) past world := by
        have keeps : Keeps system (fun operation : Operation => operation.tends head = true)
            (fun _ _ => True) fun _ _ => True := fun _ _ _ _ _ _ _ _ => ⟨trivial, trivial⟩
        exact Attempt.result_mono (tend_tends.guarded keeps trivial)
          fun _ _ _ holds => holds.2
      have first : Reaches (fun later _ _ => Processed cfg now scan later head)
          (tend cfg now scan r head) past world :=
        tend_processes (planned head List.mem_cons_self)
      apply Attempt.bind (Reaches.both first others)
      intro past₁ world₁ r₁ ⟨processed, same⟩
      have later : ∀ name ∈ rest,
          (r₁.container name).state = (scan.plan cfg now name).state := by
        intro name member
        rw [same name fun equal => nodup.1 (equal ▸ member)]
        exact planned name (List.mem_cons_of_mem _ member)
      apply Attempt.result_mono (Reaches.both Attempt.suffix_after (induction nodup.2 later))
      intro past₂ world₂ r₂ ⟨suffix, each⟩ name member
      rcases List.mem_cons.mp member with equal | member
      · rw [equal]
        exact processed.mono suffix.subset
      · exact each name member

/-- Removals come after all processing. -/
theorem actOn_processes (nodup : scan.all.Nodup) :
    Attempt.Guarded system
      (fun past moment => moment.operation.collects = true →
        ∀ name ∈ scan.all, Processed cfg now scan past name)
      (fun _ _ _ => True) (fun _ _ _ => True) (actOn cfg now scan r) past world := by
  have quiet : Keeps system (fun operation : Operation => operation.collects = false)
      (fun past moment => moment.operation.collects = true →
        ∀ name ∈ scan.all, Processed cfg now scan past name) fun _ _ => True := by
    intro past world operation answer after keeping _ _
    refine ⟨fun collects => ?_, trivial⟩
    rw [keeping] at collects
    cases collects
  have publishing (operation : Operation) (publishes : operation.publishes = true) :
      operation.collects = false := by
    cases operation <;> first | rfl | cases publishes
  have tending (name : Name) (_ : name ∈ scan.all) (operation : Operation)
      (tends : operation.tends name = true) : operation.collects = false := by
    cases operation <;> first | rfl | cases tends
  let first : Result :=
    { r with dockerReadOk := true, containers := observed cfg now scan r }
  have published : Reaches (fun _ _ _ => True) (publish cfg first) past world :=
    Attempt.guarded_any
  apply Attempt.bind (published.guarded (publish_leads publishing) quiet trivial)
  intro past₁ world₁ _ _
  have processed : Reaches
      (fun later _ _ => ∀ name ∈ scan.all, Processed cfg now scan later name)
      (tendAll cfg now scan first scan.all) past₁ world₁ :=
    tendAll_processes nodup fun _ member => observed_planned member
  apply Attempt.bind (processed.guarded (tendAll_leads tending) quiet trivial)
  intro past₂ world₂ r₂ ⟨_, each⟩
  have keeps : Keeps system (fun _ : Operation => True)
      (fun past moment => moment.operation.collects = true →
        ∀ name ∈ scan.all, Processed cfg now scan past name)
      fun past _ => ∀ name ∈ scan.all, Processed cfg now scan past name := by
    intro past world operation answer after _ _ each
    exact ⟨fun _ => each, fun name member => (each name member).mono (List.suffix_cons _ _).subset⟩
  exact Attempt.mono (Attempt.Within.guarded (Program.within_any _) keeps each)
    (fun _ _ _ _ => trivial) fun _ _ _ _ => trivial

/-! ## Removing what is gone -/

/-- The operation leaves the state files of containers that are not listed, and removes none. -/
def Operation.stays (scan : Scan) : Operation → Prop
  | .writeState name _ => name ∈ scan.all
  | .removeState _ => False
  | _ => True

/-- No state file has gone, and those of containers that are not listed are as they were. -/
structure Present (original : Name → Option Bytes) (scan : Scan) (world : World) : Prop where
  some : ∀ name, (original name).isSome = true → (world.legacy name).isSome = true
  same : ∀ name, name ∉ scan.all → world.legacy name = original name

variable {original : Name → Option Bytes}

theorem Present.keeps : Keeps system (Operation.stays scan) (fun _ _ => True)
    fun _ world => Present original scan world := by
  intro past world operation answer after stays step present
  refine ⟨trivial, ?_⟩
  have unchanged (leaves : ∀ name, operation.leaves name = true) :
      Present original scan after := by
    refine ⟨fun name is => ?_, fun name absent => ?_⟩
    · rw [system_legacy (leaves name) step]
      exact present.some name is
    · rw [system_legacy (leaves name) step]
      exact present.same name absent
  cases operation with
  | removeState name => exact stays.elim
  | writeState target content =>
      change Except String Unit at answer
      cases answer with
      | error message =>
          have same : after = world := step
          exact same ▸ present
      | ok _ =>
          cases step
          refine ⟨fun name is => ?_, fun name absent => ?_⟩
          · by_cases equal : name = target
            · simp [equal]
            · simpa [equal] using present.some name is
          · have different : name ≠ target := fun equal => absent (equal ▸ stays)
            simpa [different] using present.same name absent
  | _ => exact unchanged fun _ => rfl

theorem removeState_removes :
    Reaches (fun _ later _ => later.legacy = Function.update world.legacy name none)
      (orFail cfg r (removeState name)) past world := by
  apply Attempt.bind_iff.mpr
  apply Attempt.outcome_iff.mpr
  intro answer after step
  refine ⟨trivial, ?_⟩
  change Except String Unit at answer
  cases answer with
  | ok _ =>
      cases step
      rfl
  | error message =>
      apply Attempt.bind Attempt.guarded_any
      exact fun _ _ _ _ => trivial

/-- The state files that are listed and belong to nobody present are removed. -/
theorem collect_removes {files : List Name} :
    Reaches (fun _ later _ => ∀ name, later.legacy name =
        if (namePattern name = true ∧ name ∉ scan.all) ∧ name ∈ files then none
        else world.legacy name)
      (collect cfg scan r files) past world := by
  induction files generalizing past world with
  | nil => simp [collect, Attempt.pure_iff]
  | cons head rest induction =>
      unfold collect
      split
      · rename_i gone
        rw [Bool.and_eq_true, Bool.not_eq_true', decide_eq_false_iff_not] at gone
        apply Attempt.bind removeState_removes
        intro past₁ world₁ _ removed
        apply Attempt.result_mono induction
        intro past₂ world₂ _ each name
        rw [each name, removed]
        by_cases equal : name = head
        · simp [equal, gone.1, gone.2]
        · simp [equal]
      · rename_i kept
        rw [Bool.and_eq_true, Bool.not_eq_true', decide_eq_false_iff_not] at kept
        apply Attempt.result_mono induction
        intro past₂ world₂ _ each name
        rw [each name]
        by_cases equal : name = head
        · rw [if_neg (fun due => kept (equal ▸ due.1)), if_neg fun due => kept (equal ▸ due.1)]
        · simp [equal]

theorem globStates_lists (present : Present original scan world) :
    Reaches (fun past later files => Present original scan later ∧
        Answered .globStates (.ok files) past)
      (orFail cfg r globStates) past world := by
  apply Attempt.bind_iff.mpr
  apply Attempt.outcome_iff.mpr
  intro answer after step
  refine ⟨trivial, ?_⟩
  change Except String (List Name) at answer
  cases answer with
  | ok files =>
      rcases step with ⟨rfl, _⟩
      exact ⟨present, after, after, List.mem_cons_self⟩
  | error message =>
      apply Attempt.bind Attempt.guarded_any
      exact fun _ _ _ _ => trivial

theorem actOn_collects (present : Present original scan world) :
    Reaches (fun past later _ => ∃ files, Answered .globStates (.ok files) past ∧
        Removed original scan files later)
      (actOn cfg now scan r) past world := by
  have publishing (operation : Operation) (publishes : operation.publishes = true) :
      operation.stays scan := by
    cases operation <;> trivial
  have tending (name : Name) (member : name ∈ scan.all) (operation : Operation)
      (tends : operation.tends name = true) : operation.stays scan := by
    cases operation with
    | writeState target content =>
        have same : target = name := of_decide_eq_true tends
        exact same ▸ member
    | removeState target => cases tends
    | _ => trivial
  apply Attempt.bind (Attempt.any_error ((publish_leads publishing).guarded Present.keeps present))
  intro past₁ world₁ _ ⟨present₁, _⟩
  apply Attempt.bind
    (Attempt.any_error ((tendAll_leads tending).guarded Present.keeps present₁))
  intro past₂ world₂ r₂ ⟨present₂, _⟩
  apply Attempt.bind (globStates_lists present₂)
  intro past₃ world₃ files ⟨present₃, answered⟩
  apply Attempt.bind (Reaches.both Attempt.suffix_after collect_removes)
  intro past₄ world₄ _ ⟨suffix, removed⟩
  have same : Keeps system (fun operation : Operation => operation.publishes = true)
      (fun _ _ => True) fun _ world => world.legacy = world₄.legacy := by
    intro past world operation answer after publishes step same
    refine ⟨trivial, ?_⟩
    funext name
    have leaves : operation.leaves name = true := by
      cases operation <;> first | rfl | cases publishes
    rw [system_legacy leaves step, same]
  apply Attempt.result_mono (Reaches.both Attempt.suffix_after
    (Attempt.any_error ((publish_leads fun _ publishes => publishes).guarded same rfl)))
  intro past₅ world₅ _ ⟨suffix', unchanged, _⟩
  refine ⟨files, (answered.mono suffix.subset).mono suffix'.subset, fun name is => ?_⟩
  have there := present₃.some name is
  rw [unchanged, removed name]
  split
  · rename_i gone
    simp [gone]
  · rename_i kept
    rw [Option.isSome_iff_ne_none] at there
    exact iff_of_false there kept

end Processing

/-! ## A whole run -/

section Runs

variable {cfg : Config} {now : Int} {before : World}

abbrev Proper (cfg : Config) (now : Int) (before : World) (past : Past interface World)
    (moment : Moment interface World) : Prop :=
  Orderly cfg now past moment ∧ Careful before (moment :: past) moment.after

def Finished (original : Name → Option Bytes) (past : Past interface World)
    (world : World) : Prop :=
  ∃ scan files, Validated scan past ∧ Answered .globStates (.ok files) past ∧
    Removed original scan files world

theorem Finished.mono {original : Name → Option Bytes} {past later : Past interface World}
    {world : World} (finished : Finished original past world) (subset : past ⊆ later) :
    Finished original later world := by
  rcases finished with ⟨scan, files, validated, answered, removed⟩
  exact ⟨scan, files, validated.mono subset, answered.mono subset, removed⟩

theorem actOn_proper {scan : Scan} {r : Result} {past : Past interface World} {world : World}
    (untouched : Untouched before world) (validated : Validated scan past) :
    Attempt.Guarded system (Proper cfg now before)
      (fun later world _ => Finished before.legacy later world)
      (fun later _ _ => ∃ scan, Validated scan later) (actOn cfg now scan r) past world := by
  have nodup : scan.all.Nodup := by
    rcases validated.present with ⟨data, _, listed⟩
    exact inventory_nodup listed
  have present : Present before.legacy scan world := by
    rw [← untouched.legacy]
    exact ⟨fun _ is => is, fun _ _ => rfl⟩
  have collects : Reaches (fun later world _ => ∃ files,
        Answered .globStates (.ok files) later ∧ Removed before.legacy scan files world)
      (actOn cfg now scan r) past world := actOn_collects present
  have whole := Attempt.grows (Attempt.both (actOn_processes nodup) collects)
    (List.suffix_refl past)
  apply Guarded.mono whole
  · intro later moment ⟨suffix, each, _⟩
    have still := validated.mono suffix.subset
    exact ⟨⟨fun _ => ⟨scan, still⟩, fun collects => ⟨scan, still, each collects⟩⟩,
      .inl ⟨scan, still.mono (List.suffix_cons _ _).subset⟩⟩
  · intro later world outcome holds
    cases outcome with
    | ok _ =>
        have ⟨suffix, _, files, answered, removed⟩ := holds
        exact ⟨scan, files, validated.mono suffix.subset, answered, removed⟩
    | error message => exact ⟨scan, validated.mono holds.1.subset⟩

theorem acceptLedger_read {world : World} {answer : LedgerRead} {r : Result}
    (read : answer = world.ledger.read ∨ ∃ message, answer = .failed message)
    (accepted : acceptLedger answer = .ok r) : acceptLedger world.ledger.read = .ok r := by
  rcases read with rfl | ⟨message, rfl⟩
  · exact accepted
  · cases accepted

theorem execute_proper :
    Attempt.Guarded system (Proper cfg now before)
      (fun later world _ => Finished before.legacy later world)
      (fun later world _ => Careful before later world) (execute cfg now) [] before := by
  have keeps : Keeps system (Operation.Early before) (Proper cfg now before)
      fun _ world => Untouched before world := Untouched.keeps
  have reading : Keeps system (fun operation : Operation => operation.reads = true)
      (Proper cfg now before) fun _ world => Untouched before world := by
    apply keeps.mono
    intro operation reads
    cases operation <;> first | rfl | cases reads
  have start : Untouched before before := ⟨rfl, .inl rfl⟩
  apply Attempt.bind_iff.mpr
  apply Attempt.ofExcept_iff.mpr
  cases checkConfig cfg now with
  | error message => exact .inr start
  | ok _ =>
  apply Attempt.call_bind.mpr
  intro read after₁ step₁
  have ⟨proper₁, untouched₁⟩ := keeps [] before .readLedger read after₁ rfl step₁ start
  refine ⟨proper₁, ?_⟩
  apply Attempt.bind_iff.mpr
  apply Attempt.ofExcept_iff.mpr
  cases accepted : acceptLedger read with
  | error message => exact .inr untouched₁
  | ok previous =>
  have known := acceptLedger_read step₁.2 accepted
  apply Attempt.bind_iff.mpr
  intro answer after₂ step₂
  have ⟨proper₂, untouched₂⟩ := keeps [⟨before, .readLedger, read, after₁⟩] after₁ .openLog
    answer after₂ rfl step₂ untouched₁
  refine ⟨proper₂, ?_⟩
  change Except String Unit at answer
  cases answer with
  | error message => exact .inr untouched₂
  | ok _ =>
  let r : Result := { previous with lastRun := now, success := false, dockerReadOk := false }
  have early (operation : Operation) (publishes : operation = .writeLedger r ∨
      operation = .writeTextfile r cfg.maxRestarts) : operation.Early before := by
    rcases publishes with rfl | rfl
    · exact ⟨previous, known, rfl⟩
    · rfl
  have publishing : Attempt.Within (Operation.Early before) (publish cfg r : Go Unit) :=
    Attempt.Within.bind ⟨early _ (.inl rfl), fun _ => trivial⟩
      fun _ => ⟨early _ (.inr rfl), fun _ => trivial⟩
  apply Attempt.bind_iff.mpr
  apply Attempt.bind_iff.mpr
  apply Attempt.outcome_iff.mpr
  apply Guarded.post_mono (readScan_validates reading untouched₂)
  intro past₃ world₃ outcome ends
  cases outcome with
  | ok scan =>
      apply Attempt.mono (actOn_proper ends.1 ends.2)
      · exact fun _ _ _ holds => holds
      · exact fun _ _ _ validated => .inl validated
  | error message =>
      apply Attempt.bind_iff.mpr
      apply Attempt.mono (publishing.guarded keeps ends)
      · exact fun _ _ _ untouched => .inr untouched
      · exact fun _ _ _ untouched => .inr untouched

/-! ## Asking once -/

section Asking

variable {counted : Operation → Bool} {α : Type}

theorem orFail_atMost {r : Result} {action : Go α} {bound : Nat}
    (publishing : ∀ operation : Operation, operation.publishes = true →
      counted operation = false)
    (atMost : action.run.AtMost counted bound) :
    (orFail cfg r action).run.AtMost counted bound := by
  apply Attempt.atMost_before (Attempt.atMost_outcome atMost)
  intro outcome
  cases outcome with
  | ok result => exact Attempt.within_pure result
  | error message =>
      exact (publish_leads publishing).within.bind fun _ => Attempt.within_throw message

theorem readStates_within (names : List Name) :
    Attempt.Within (fun operation : Operation => ∃ name, operation = .readState name)
      (readStates names) := by
  induction names with
  | nil => exact Attempt.within_pure _
  | cons head rest induction =>
      have asked : Attempt.Within
          (fun operation : Operation => ∃ name, operation = .readState name)
          (readState head) := ⟨⟨head, rfl⟩, fun _ => trivial⟩
      refine asked.bind fun read => ?_
      cases read with
      | notExist => exact induction
      | failed message => exact Attempt.within_throw message
      | data content =>
          exact (Attempt.within_ofExcept _).bind fun _ =>
            induction.bind fun _ => Attempt.within_pure _

def Operation.inventories : Operation → Bool
  | .psAll => true
  | _ => false

def Operation.lists : Operation → Bool
  | .globStates => true
  | _ => false

/-- A run asks once for the containers and once for the state files. -/
theorem execute_atMost
    (quiet : ∀ operation : Operation, operation ≠ .psAll → operation ≠ .globStates →
      counted operation = false) :
    (execute cfg now).run.AtMost counted
      ((counted .psAll).toNat + (counted .globStates).toNat) := by
  have publishing (operation : Operation) (publishes : operation.publishes = true) :
      counted operation = false := by
    cases operation with
    | psAll => cases publishes
    | globStates => cases publishes
    | _ => exact quiet _ nofun nofun
  have tending (name : Name) (operation : Operation) (tends : operation.tends name = true) :
      counted operation = false := by
    cases operation with
    | psAll => cases tends
    | globStates => cases tends
    | _ => exact quiet _ nofun nofun
  have reading (operation : Operation) (reads : ∃ name, operation = .readState name) :
      counted operation = false := by
    rcases reads with ⟨name, rfl⟩
    exact quiet _ nofun nofun
  have listing (r : Result) :
      (orFail cfg r globStates).run.AtMost counted (counted .globStates).toNat :=
    orFail_atMost publishing ⟨Nat.le_refl _, fun _ => trivial⟩
  have acting (scan : Scan) (r : Result) :
      (actOn cfg now scan r).run.AtMost counted (counted .globStates).toNat := by
    apply Attempt.atMost_after (publish_leads publishing).within
    intro _
    apply Attempt.atMost_after (tendAll_leads fun name _ => tending name).within
    intro r
    apply Attempt.atMost_before (listing r)
    intro files
    apply (collect_leads publishing fun name _ => quiet (.removeState name) nofun nofun).within.bind
    exact fun _ => (publish_leads publishing).within
  have scanning : readScan.run.AtMost counted (counted .psAll).toNat := by
    refine Attempt.atMost_after ⟨quiet .psUnhealthy nofun nofun, fun _ => trivial⟩ fun first => ?_
    apply Attempt.atMost_after (Attempt.within_ofExcept _)
    intro u
    refine Attempt.atMost_before ⟨Nat.le_refl _, fun _ => trivial⟩ fun second => ?_
    apply (Attempt.within_ofExcept _).bind
    intro a
    apply (Attempt.within_ofExcept _).bind
    intro unhealthy
    apply (Attempt.within_ofExcept _).bind
    intro (all, rows)
    dsimp only
    split
    · exact ((readStates_within all).mono reading).bind fun _ => Attempt.within_pure _
    · exact Attempt.within_throw _
  apply Attempt.atMost_after (Attempt.within_ofExcept _)
  intro _
  refine Attempt.atMost_after ⟨quiet .readLedger nofun nofun, fun _ => trivial⟩ fun read => ?_
  apply Attempt.atMost_after (Attempt.within_ofExcept _)
  intro r
  refine Attempt.atMost_after ⟨quiet .openLog nofun nofun, fun _ => trivial⟩ fun _ => ?_
  exact Attempt.atMost_bind (orFail_atMost publishing scanning) fun scan => acting scan _

theorem Answered.unique {operation : Operation} {first second : Answer operation}
    {moments : List (Moment interface World)} (asked : counted operation = true)
    (once : (moments.countP fun moment => counted moment.operation) ≤ 1)
    (answered : Answered operation first moments)
    (answered' : Answered operation second moments) : first = second := by
  rcases answered with ⟨before, after, member⟩
  rcases answered' with ⟨before', after', member'⟩
  have same := eq_of_countP_le_one once member member' asked asked
  cases same
  rfl

end Asking

theorem Validated.unique {run : ScanRun} {scan scan' : Scan}
    (valid : run.Valid system fun scan => (execute scan.1 scan.2).run)
    (validated : Validated scan run.moments) (validated' : Validated scan' run.moments) :
    scan.all = scan'.all := by
  have quiet (operation : Operation) (unasked : operation ≠ .psAll) (_ : operation ≠ .globStates) :
      operation.inventories = false := by
    cases operation <;> first | rfl | exact absurd rfl unasked
  rcases validated.present with ⟨data, answered, listed⟩
  rcases validated'.present with ⟨data', answered', listed'⟩
  have same := Answered.unique rfl (valid.countP_le (execute_atMost quiet)) answered answered'
  cases same
  rw [listed] at listed'
  exact congrArg Prod.fst (Except.ok.inj listed')

theorem listed_unique {run : ScanRun} {files files' : List Name}
    (valid : run.Valid system fun scan => (execute scan.1 scan.2).run)
    (answered : Answered .globStates (.ok files) run.moments)
    (answered' : Answered .globStates (.ok files') run.moments) : files = files' := by
  have quiet (operation : Operation) (_ : operation ≠ .psAll) (unasked : operation ≠ .globStates) :
      operation.lists = false := by
    cases operation <;> first | rfl | exact absurd rfl unasked
  have same := Answered.unique rfl (valid.countP_le (execute_atMost quiet)) answered answered'
  exact Except.ok.inj same

/-- Restarts, notifications and changes of state files come after validation; without it no
state file changes and the ledger keeps what it had; what is removed is removed after every
container has been processed; and a run that succeeds has removed what was listed and is gone,
which is all that is gone just if the listing was complete. -/
theorem validates_before_acting {run : ScanRun}
    (valid : run.Valid system fun scan => (execute scan.1 scan.2).run) :
    (∀ earlier moment later, run.moments = earlier ++ moment :: later →
      moment.operation.acts = true → ∃ scan, Validated scan earlier) ∧
    ((∀ scan, ¬Validated scan run.moments) → run.after.legacy = run.before.legacy ∧
      LedgerKept run.before.ledger run.after.ledger) ∧
    (∀ earlier moment later, run.moments = earlier ++ moment :: later →
      moment.operation.collects = true → ∃ scan, Validated scan earlier ∧
        ∀ name ∈ scan.all, Processed run.parameter.1 run.parameter.2 scan earlier name) ∧
    (run.outcome = some (.ok ()) → Finished run.before.legacy run.moments run.after) ∧
    ((run.outcome = some (.ok ()) → ∃ scan, Validated scan run.moments ∧
        Collected run.before.legacy scan run.after) ↔
      (run.outcome = some (.ok ()) → ∃ scan files, Validated scan run.moments ∧
        Answered .globStates (.ok files) run.moments ∧
        Listed run.before.legacy scan files)) := by
  have proper : Attempt.Guarded system
      (Proper run.parameter.1 run.parameter.2 run.before) _ _
      (execute run.parameter.1 run.parameter.2) [] run.before := execute_proper
  have orderly (earlier : List (Moment interface World)) (moment later)
      (split : run.moments = earlier ++ moment :: later) :
      Orderly run.parameter.1 run.parameter.2 earlier.reverse moment := by
    have now := proper.moment_good valid split
    rw [List.append_nil] at now
    exact now.1
  have finished (succeeded : run.outcome = some (.ok ())) :
      Finished run.before.legacy run.moments run.after := by
    have executes := valid
    unfold Run.Valid at executes
    rw [succeeded] at executes
    have result := proper.result executes
    rw [List.append_nil] at result
    exact Finished.mono result fun _ member => List.mem_reverse.mp member
  refine ⟨fun earlier moment later split acts => ?_, fun unvalidated => ?_,
    fun earlier moment later split collects => ?_, finished, forall_congr' fun succeeded => ?_⟩
  · have ⟨scan, validated⟩ := (orderly earlier moment later split).acts acts
    exact ⟨scan, validated.mono fun _ member => List.mem_reverse.mp member⟩
  · have careful : Careful run.before run.moments.reverse run.after := by
      have kept := Guarded.post_mono proper fun later world outcome ends =>
        show Careful run.before later world by
          cases outcome with
          | ok _ =>
              have ⟨scan, _, validated, _⟩ := ends
              exact .inl ⟨scan, validated⟩
          | error message => exact ends
      simpa using History.inv_after kept (.inr ⟨rfl, .inl rfl⟩) valid
    rcases careful with ⟨scan, validated⟩ | untouched
    · exact absurd (validated.mono fun _ member => List.mem_reverse.mp member)
        (unvalidated scan)
    · exact ⟨untouched.legacy, untouched.ledger⟩
  · have ⟨scan, validated, each⟩ := (orderly earlier moment later split).collects collects
    exact ⟨scan, validated.mono fun _ member => List.mem_reverse.mp member,
      fun name member => (each name member).mono fun _ => List.mem_reverse.mp⟩
  · -- The scan and the listing of a run are those that its only answers gave.
    have ⟨scan, files, validated, answered, removed⟩ := finished succeeded
    constructor
    · intro ⟨scan', validated', collected⟩
      refine ⟨scan, files, validated, answered, removed.collected_iff.mp fun name is => ?_⟩
      rw [validated.unique valid validated']
      exact collected name is
    · intro ⟨scan', files', validated', answered', listed⟩
      refine ⟨scan, validated, removed.collected_iff.mpr fun name is good absent => ?_⟩
      rw [listed_unique valid answered answered']
      exact listed name is good (by rwa [← validated.unique valid validated'])

/-! ## A directory that cannot be read -/

/-- The state file of a container that has gone. -/
def orphaned : World :=
  ⟨.absent, Function.update (fun _ => none) (ascii "old") (some (State.bytes ⟨1, 1, 900, 0⟩))⟩

def orphanScan (files : List Name) : ScanRun :=
  hostScan (steadyHost files [] (ascii "web|running|healthy\n")) samplePolicy 1000 orphaned

theorem orphanScan_valid (files : List Name) :
    (orphanScan files).Valid system fun scan => (execute scan.1 scan.2).run :=
  hostScan_valid (steadyHost_permitted _ _ _) samplePolicy 1000 orphaned

theorem validates_before_acting_orphanScan :
    (orphanScan [ascii "old"]).after.legacy (ascii "old") = none ∧
    ∃ scan, Validated scan (orphanScan [ascii "old"]).moments ∧
      Collected orphaned.legacy scan (orphanScan [ascii "old"]).after := by
  have computed : (orphanScan [ascii "old"]).outcome = some (.ok ()) ∧
      (orphanScan [ascii "old"]).after.legacy (ascii "old") = none := by decide +kernel
  have law := validates_before_acting (orphanScan_valid [ascii "old"])
  have ⟨scan, files, validated, answered, removed⟩ := law.2.2.2.1 computed.1
  have listed := (removed (ascii "old") rfl).mp computed.2
  refine ⟨computed.2, law.2.2.2.2.mpr
    (fun _ => ⟨scan, files, validated, answered, fun name is _ _ => ?_⟩) computed.1⟩
  have only : name = ascii "old" := by
    by_contra other
    simp [orphanScan, hostScan, orphaned, other] at is
  rw [only]
  exact listed.2

def toldWeb (moment : Moment interface World) : Bool :=
  match moment.operation, moment.answer with
  | .psAll, (answer : Except String Bytes) =>
      match answer with
      | .ok data => decide (data = ascii "web|running|healthy\n")
      | .error _ => false
  | _, _ => true

/-- Nothing is listed of a directory that can be searched and not read. The run succeeds and
leaves the file. -/
theorem orphanScan_uncollected :
    (orphanScan []).Valid system (fun scan => (execute scan.1 scan.2).run) ∧
      (orphanScan []).outcome = some (.ok ()) ∧
      ¬∃ scan, Validated scan (orphanScan []).moments ∧
        Collected (orphanScan []).before.legacy scan (orphanScan []).after := by
  have computed : (orphanScan []).outcome = some (.ok ()) ∧
      (orphanScan []).after.legacy (ascii "old") ≠ none ∧
      (orphanScan []).moments.all toldWeb = true := by decide +kernel
  refine ⟨orphanScan_valid [], computed.1, ?_⟩
  intro ⟨scan, validated, collected⟩
  have ⟨data, ⟨before, after, member⟩, listed⟩ := validated.present
  have told := List.all_eq_true.mp computed.2.2 _ member
  have same : data = ascii "web|running|healthy\n" := of_decide_eq_true told
  have web : inventory (ascii "web|running|healthy\n") =
      .ok ([ascii "web"], [(ascii "web", ⟨.running, .healthy⟩)]) := by decide +kernel
  rw [same, web] at listed
  have all : scan.all = [ascii "web"] := (congrArg Prod.fst (Except.ok.inj listed)).symm
  have gone : namePattern (ascii "old") = true ∧ ascii "old" ∉ scan.all := by
    rw [all]
    decide
  exact computed.2.1 ((collected (ascii "old") rfl).mpr gone)

end Runs

end Homelab.Watchdog
