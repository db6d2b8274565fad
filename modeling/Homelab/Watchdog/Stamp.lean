import Homelab.Watchdog.Tend

/-! # Stamps and pages

A page is due once in a cooldown. The state file gets the stamp of the page first, the ledger
and the metrics are published, and then the helper is called. A run that ends in between leaves
a stamp behind, and no page.
-/

namespace Homelab.Watchdog

open Effects ByteText

/-! ## What a stamp says -/

def alertOf (content : Option Bytes) : Option Int :=
  match content.map parseState with
  | some (.ok s) => some s.lastAlert
  | _ => none

/-- The file of the container has the stamp of this run, and did not have it before. -/
def Stamped (name : Name) (now : Int) (original : Option Bytes) (world : World) : Prop :=
  alertOf (world.legacy name) = some now ∧ alertOf original ≠ some now

def Operation.saves (name : Name) : Operation → Bool
  | .writeState other _ => other = name
  | _ => false

/-- The last thing that was done, but for writes of the ledger and the metrics, is to save the
state of the container with a new stamp. -/
def Pending (name : Name) (now : Int) (original : Option Bytes) : Past interface World → Prop
  | [] => False
  | moment :: rest =>
      if moment.operation.publishes then Pending name now original rest
      else moment.operation.saves name = true ∧ Stamped name now original moment.after

def refused (moment : Moment interface World) : Bool :=
  match moment.operation, moment.answer with
  | .writeLedger _, (answer : Except String Unit) => !answer.isOk
  | .writeTextfile _ _, (answer : Except String Unit) => !answer.isOk
  | _, _ => false

/-- The last write of the ledger or the metrics failed while a page was pending. -/
def CutOff (name : Name) (now : Int) (original : Option Bytes) : Past interface World → Prop
  | [] => False
  | moment :: rest => refused moment = true ∧ Pending name now original rest

/-- The operation neither touches the state file of the container nor pages for it. -/
def Operation.spares (name : Name) (operation : Operation) : Bool :=
  operation.leaves name && !operation.pages name

theorem Operation.publishes_spares {name : Name} {operation : Operation}
    (publishes : operation.publishes = true) : operation.spares name = true := by
  cases operation <;> first | rfl | cases publishes

theorem Operation.spares_saves {name : Name} {operation : Operation}
    (spares : operation.spares name = true) : operation.saves name = false := by
  cases operation with
  | writeState other content => simpa [Operation.spares, leaves, pages, saves] using spares
  | _ => rfl

theorem refused_publishes {moment : Moment interface World} (failed : refused moment = true) :
    moment.operation.publishes = true := by
  rcases moment with ⟨before, operation, answer, after⟩
  cases operation <;> first | rfl | cases failed

/-! ## Before and after the page -/

/-- No page so far, and a stamp only if the page comes next. -/
structure Unpaged (name : Name) (now : Int) (original : Option Bytes)
    (past : Past interface World) (world : World) : Prop where
  paged : ¬Paged name past
  pending : Pending name now original past ↔ Stamped name now original world

structure Idle (name : Name) (now : Int) (original : Option Bytes)
    (past : Past interface World) (world : World) : Prop where
  unpaged : Unpaged name now original past world
  stamped : ¬Stamped name now original world

structure Settled (name : Name) (now : Int) (original : Option Bytes)
    (past : Past interface World) (world : World) : Prop where
  pending : ¬Pending name now original past
  paged : Stamped name now original world → Paged name past

def Faithful (name : Name) (now : Int) (original : Option Bytes)
    (past : Past interface World) (world : World) : Prop :=
  (Stamped name now original world → Paged name past) ↔ ¬CutOff name now original past

section Stages

variable {name : Name} {now : Int} {original : Option Bytes} {past : Past interface World}
  {world after : World} {operation : Operation} {answer : Answer operation}

theorem pending_publishes {moment : Moment interface World}
    (publishes : moment.operation.publishes = true) :
    Pending name now original (moment :: past) ↔ Pending name now original past := by
  rw [Pending, if_pos publishes]

theorem pending_other {moment : Moment interface World}
    (other : moment.operation.saves name = false) (idle : ¬Pending name now original past) :
    ¬Pending name now original (moment :: past) := by
  rw [Pending]
  split
  · exact idle
  · simp [other]

theorem CutOff.pending (cut : CutOff name now original past) :
    Pending name now original past := by
  cases past with
  | nil => exact cut
  | cons moment rest => exact (pending_publishes (refused_publishes cut.1)).mpr cut.2

theorem Settled.faithful (settled : Settled name now original past world) :
    Faithful name now original past world :=
  ⟨fun _ cut => settled.pending cut.pending, fun _ => settled.paged⟩

theorem Idle.settled (idle : Idle name now original past world) :
    Settled name now original past world :=
  ⟨fun pending => idle.stamped (idle.unpaged.pending.mp pending),
    fun stamped => absurd stamped idle.stamped⟩

theorem Idle.faithful (idle : Idle name now original past world) :
    Faithful name now original past world :=
  idle.settled.faithful

theorem stamped_congr (same : after.legacy name = world.legacy name) :
    Stamped name now original after ↔ Stamped name now original world := by
  rw [Stamped, Stamped, same]

/-- Publishing lets a page wait. -/
theorem Unpaged.published (unpaged : Unpaged name now original past world)
    (publishes : operation.publishes = true)
    (step : system.Step world operation answer after) :
    Unpaged name now original (⟨world, operation, answer, after⟩ :: past) after := by
  have spares : operation.spares name = true := Operation.publishes_spares publishes
  rw [Operation.spares, Bool.and_eq_true, Bool.not_eq_true'] at spares
  constructor
  · rw [paged_cons]
    simp [spares.2, unpaged.paged]
  · rw [pending_publishes publishes, unpaged.pending, stamped_congr (system_legacy spares.1 step)]

/-- A run that ends because it could not publish ends with the page pending or not at all. -/
theorem Unpaged.refused (unpaged : Unpaged name now original past world)
    (failed : refused ⟨world, operation, answer, after⟩ = true)
    (step : system.Step world operation answer after) :
    Faithful name now original (⟨world, operation, answer, after⟩ :: past) after := by
  have publishes := refused_publishes failed
  have next := unpaged.published publishes step
  have cut : CutOff name now original (⟨world, operation, answer, after⟩ :: past) ↔
      Stamped name now original after := by
    rw [← next.pending, pending_publishes publishes, CutOff]
    exact ⟨fun holds => holds.2, fun pending => ⟨failed, pending⟩⟩
  rw [Faithful, cut]
  exact ⟨fun pages stamped => next.paged (pages stamped),
    fun unstamped stamped => absurd stamped unstamped⟩

theorem Unpaged.saved (unpaged : Unpaged name now original past world)
    (saves : operation.saves name = true) :
    Unpaged name now original (⟨world, operation, answer, after⟩ :: past) after := by
  cases operation with
  | writeState other content =>
      constructor
      · rw [paged_cons]
        simp [Operation.pages, unpaged.paged]
      · rw [Pending]
        simp [Operation.publishes, saves]
  | _ => cases saves

theorem Settled.page (pages : operation.pages name = true) :
    Settled name now original (⟨world, operation, answer, after⟩ :: past) after := by
  cases operation with
  | notifyHelper title priority tags body =>
      constructor
      · rw [Pending]
        simp [Operation.publishes, Operation.saves]
      · intro _
        exact paged_cons.mpr (.inl pages)
  | _ => cases pages

theorem Idle.spared (idle : Idle name now original past world)
    (spared : operation.spares name = true)
    (step : system.Step world operation answer after) :
    Idle name now original (⟨world, operation, answer, after⟩ :: past) after := by
  have other := Operation.spares_saves spared
  rw [Operation.spares, Bool.and_eq_true, Bool.not_eq_true'] at spared
  have unstamped : ¬Stamped name now original after := by
    rw [stamped_congr (system_legacy spared.1 step)]
    exact idle.stamped
  refine ⟨⟨?_, ?_⟩, unstamped⟩
  · rw [paged_cons]
    simp [spared.2, idle.unpaged.paged]
  · exact iff_of_false (pending_other other idle.settled.pending) unstamped

/-- Afterwards only another stamp could matter. -/
theorem Settled.other (settled : Settled name now original past world)
    (other : operation.saves name = false)
    (step : system.Step world operation answer after) :
    Settled name now original (⟨world, operation, answer, after⟩ :: past) after := by
  refine ⟨pending_other other settled.pending, ?_⟩
  intro stamped
  have before : Stamped name now original world := by
    cases leaves : operation.leaves name with
    | true => exact (stamped_congr (system_legacy leaves step)).mp stamped
    | false =>
        cases operation with
        | writeState target content => simp_all [Operation.leaves, Operation.saves]
        | removeState target =>
            simp only [Operation.leaves, ne_eq, decide_not, Bool.not_eq_eq_eq_not,
              Bool.not_false, decide_eq_true_eq] at leaves
            subst leaves
            change Except String Unit at answer
            cases answer with
            | error message =>
                have same : after = world := step
                exact same ▸ stamped
            | ok _ =>
                -- a file that was removed has no stamp
                cases step
                simp [Stamped, alertOf] at stamped
        | _ => cases leaves
  exact paged_cons.mpr (.inr (settled.paged before))

theorem Idle.keeps : Keeps system (fun operation => operation.spares name = true)
    (fun _ _ => True) (Idle name now original) :=
  fun _ _ _ _ _ spared step idle => ⟨trivial, idle.spared spared step⟩

theorem Settled.keeps : Keeps system (fun operation => operation.saves name = false)
    (fun _ _ => True) (Settled name now original) :=
  fun _ _ _ _ _ other step settled => ⟨trivial, settled.other other step⟩

end Stages

/-- What is done about one container spares the others. -/
theorem Operation.tends_spares {name target : Name} {operation : Operation}
    (different : target ≠ name) (tends : operation.tends target = true) :
    operation.spares name = true := by
  cases operation with
  | writeState other content =>
      have same : other = target := of_decide_eq_true tends
      simp [Operation.spares, leaves, pages, same, different]
  | notifyHelper title priority tags body =>
      have silent : (Operation.notifyHelper title priority tags body).pages name = false := by
        rw [Bool.eq_false_iff]
        intro pages
        rcases Bool.or_eq_true _ _ ▸ tends with restarted | other
        · rw [of_decide_eq_true restarted, pages_restarted] at pages
          cases pages
        · exact different (Operation.pages_unique other pages)
      simp [Operation.spares, leaves, silent]
  | restart other => rfl
  | writeLedger r => rfl
  | writeTextfile r budget => rfl
  | _ => cases tends

/-- The action leaves the container alone and returns what `ends` says. -/
abbrev Sparing {α : Type} (name : Name) (ends : α → Prop) (action : Go α) : Prop :=
  Attempt.Leads (fun operation : Operation => operation.spares name = true) ends action

theorem publish_spares {cfg : Config} {r : Result} {name : Name} :
    Sparing name (fun _ => True) (publish cfg r) :=
  publish_leads fun _ => Operation.publishes_spares

theorem restarted_spares {cfg : Config} {r : Result} {name : Name}
    {title priority body : Bytes} :
    Sparing name (fun last => last.containers = r.containers)
      (notify cfg r title priority (ascii "wrench,docker") body) := by
  apply notify_leads fun _ => Operation.publishes_spares
  simp [Operation.spares, Operation.leaves, pages_restarted]

/-! ## What the scan does to the container itself -/

theorem alertOf_bytes {s : State} {alert : Int} (natural : s.Natural)
    (recorded : alertOf (some s.bytes) = some alert) : alert = s.lastAlert := by
  simp only [alertOf, Option.map_some] at recorded
  split at recorded
  · rename_i read parsed
    rw [Option.some.injEq] at parsed recorded
    rw [parseState_bytes natural parsed] at recorded
    exact recorded.symm
  · cases recorded

/-- Saving the state would not put a new stamp into the file. -/
structure Unstamped (now : Int) (original : Option Bytes) (s : State) : Prop where
  natural : s.Natural
  alert : s.lastAlert = now → alertOf original = some now

theorem Unstamped.stamped {now : Int} {original : Option Bytes} {name : Name} {world : World}
    {s : State} (unstamped : Unstamped now original s)
    (saved : world.legacy name = some s.bytes) : ¬Stamped name now original world := by
  intro stamped
  rw [Stamped, saved] at stamped
  exact stamped.2 (unstamped.alert (alertOf_bytes unstamped.natural stamped.1).symm)

theorem Scanned.natural {name : Name} {file : Option Bytes} {scan : Scan}
    (scanned : Scanned name file scan) : (scan.state name).Natural := by
  rw [Scan.state]
  cases lookup : scan.states.lookup name with
  | none => exact State.zero_natural
  | some s =>
      rcases scanned.readBack.recorded s lookup with ⟨content, _, parsed⟩
      exact parseState_natural parsed

/-- A stamp that is carried over was in the file before. -/
theorem Scanned.unstamped {cfg : Config} {now : Int} {name : Name} {file : Option Bytes}
    {scan : Scan} (scanned : Scanned name file scan) (started : 1 ≤ now)
    (quiet : ¬((scan.plan cfg now name).action = .budget ∧
      (scan.plan cfg now name).notify = true)) :
    Unstamped now file (scan.plan cfg now name).state := by
  have nonnegative : 0 ≤ now := by omega
  refine ⟨State.decide_natural scanned.natural _ nonnegative _ _ _, ?_⟩
  rw [Scan.plan, State.decide_lastAlert quiet, Scan.state]
  intro alert
  split at alert
  · cases lookup : scan.states.lookup name with
    | none =>
        rw [lookup] at alert
        change (0 : Int) = now at alert
        omega
    | some s =>
        rcases scanned.readBack.recorded s lookup with ⟨content, present, parsed⟩
        rw [lookup, Option.getD_some] at alert
        simp [alertOf, present, parsed, alert]
  · omega

section Own

variable {cfg : Config} {now : Int} {name : Name} {original : Option Bytes}
  {past : Past interface World} {world : World} {r : Result} {s : State} {c : Container}

/-- A piece of the scan, which may fail as long as the failure is faithful. -/
abbrev Bound {α : Type} (name : Name) (now : Int) (original : Option Bytes)
    (post : Past interface World → World → α → Prop) (action : Go α)
    (past : Past interface World) (world : World) : Prop :=
  Attempt.Guarded system (fun _ _ => True) post
    (fun past world _ => Faithful name now original past world) action past world

theorem Sparing.idle {α : Type} {ends : α → Prop} {action : Go α}
    (spares : Sparing name ends action) (idle : Idle name now original past world) :
    Bound name now original
      (fun past world result => Idle name now original past world ∧ ends result)
      action past world :=
  Attempt.mono (spares.guarded Idle.keeps idle) (fun _ _ _ holds => holds)
    fun _ _ _ idle => idle.faithful

theorem Settled.bound {α : Type} {ends : α → Prop} {action : Go α}
    (leads : Attempt.Leads (fun operation : Operation => operation.saves name = false) ends
      action) (settled : Settled name now original past world) :
    Bound name now original
      (fun past world result => Settled name now original past world ∧ ends result)
      action past world :=
  Attempt.mono (leads.guarded Settled.keeps settled) (fun _ _ _ holds => holds)
    fun _ _ _ settled => settled.faithful

theorem Sparing.settled {α : Type} {ends : α → Prop} {action : Go α}
    (spares : Sparing name ends action) (settled : Settled name now original past world) :
    Bound name now original
      (fun past world result => Settled name now original past world ∧ ends result)
      action past world :=
  settled.bound (spares.mono (fun _ => Operation.spares_saves) fun _ holds => holds)

theorem publish_unpaged (unpaged : Unpaged name now original past world) :
    Bound name now original (fun past world _ => Unpaged name now original past world)
      (publish cfg r) past world := by
  apply Attempt.bind_iff.mpr
  intro answer after step
  refine ⟨trivial, ?_⟩
  change Except String Unit at answer
  cases answer with
  | error message => exact unpaged.refused rfl step
  | ok _ =>
  have published := unpaged.published
    (show (Operation.writeLedger r).publishes = true from rfl) step
  intro answer after step
  refine ⟨trivial, ?_⟩
  change Except String Unit at answer
  cases answer with
  | error message => exact published.refused rfl step
  | ok _ => exact published.published rfl step

theorem notify_unpaged {title priority tags body : Bytes}
    (pages : (Operation.notifyHelper title priority tags body).pages name = true)
    (unpaged : Unpaged name now original past world) :
    Bound name now original (fun past world _ => Settled name now original past world)
      (notify cfg r title priority tags body) past world := by
  apply Attempt.bind (publish_unpaged unpaged)
  intro past₁ world₁ _ unpaged₁
  apply Attempt.call_bind.mpr
  intro answer after step
  refine ⟨trivial, ?_⟩
  apply Attempt.bind (Sparing.settled publish_spares (Settled.page pages))
  intro past₂ world₂ _ settled₂
  exact settled₂.1

/-- The state of the container is saved, or the file stays as it was. -/
theorem saveLegacy_idle (idle : Idle name now original past world) :
    Bound name now original
      (fun past world _ => Unpaged name now original past world ∧
        world.legacy name = some s.bytes)
      (orFail cfg r (saveLegacy name s)) past world := by
  apply Attempt.bind_iff.mpr
  apply Attempt.outcome_iff.mpr
  intro answer after step
  refine ⟨trivial, ?_⟩
  have saved : Unpaged name now original
      (⟨world, Operation.writeState name s.bytes, answer, after⟩ :: past) after :=
    idle.unpaged.saved (by simp [Operation.saves])
  change Except String Unit at answer
  cases answer with
  | ok _ =>
      cases step
      exact ⟨saved, by simp⟩
  | error message =>
      have same : after = world := step
      have still : Idle name now original _ after := ⟨saved, same ▸ idle.stamped⟩
      apply Attempt.bind (Sparing.idle publish_spares still)
      exact fun _ _ _ idle => idle.1.faithful

theorem saveLegacy_unstamped (unstamped : Unstamped now original s)
    (idle : Idle name now original past world) :
    Bound name now original (fun past world _ => Idle name now original past world)
      (orFail cfg r (saveLegacy name s)) past world := by
  apply Attempt.result_mono (saveLegacy_idle idle)
  intro past₁ world₁ _ saved
  exact ⟨saved.1, unstamped.stamped saved.2⟩

theorem tendRestart_idle (started : 1 ≤ now) (unstamped : Unstamped now original c.state)
    (idle : Idle name now original past world) :
    Bound name now original (fun past world _ => Settled name now original past world)
      (tendRestart cfg now s r name c) past world := by
  apply Attempt.bind (Sparing.idle publish_spares idle)
  intro past₁ world₁ _ idle₁
  have command : Sparing name (fun _ => True) (restartCommand name) :=
    ⟨rfl, fun _ _ _ => trivial⟩
  apply Attempt.bind (command.idle idle₁.1)
  intro past₂ world₂ answer idle₂
  cases answer with
  | ok _ =>
      have restarted : Unstamped now original (c.state.restarted now) := by
        rcases unstamped with ⟨⟨_, restarts, _, lastAlert⟩, alert⟩
        refine ⟨⟨le_refl 0, ?_, ?_, lastAlert⟩, alert⟩
        · change 0 ≤ c.state.restarts + 1
          omega
        · change 0 ≤ now
          omega
      apply Attempt.bind (saveLegacy_unstamped restarted idle₂.1)
      intro past₃ world₃ _ idle₃
      apply Attempt.bind (Sparing.idle publish_spares idle₃)
      intro past₄ world₄ _ idle₄
      apply Attempt.result_mono (Sparing.idle restarted_spares idle₄.1)
      exact fun _ _ _ idle => idle.1.settled
  | error message =>
      apply Attempt.bind (saveLegacy_unstamped unstamped idle₂.1)
      intro past₃ world₃ _ idle₃
      apply Attempt.bind (Sparing.idle publish_spares idle₃)
      intro past₄ world₄ _ idle₄
      split
      · apply Attempt.bind (saveLegacy_idle idle₄.1)
        intro past₅ world₅ _ saved
        exact notify_unpaged (by simp [Operation.pages]) saved.1
      · exact idle₄.1.settled

theorem act_unpaged {p : Plan} (started : 1 ≤ now)
    (unpaged : Unpaged name now original past world)
    (calm : ¬(p.action = .budget ∧ p.notify = true) →
      Idle name now original past world ∧ Unstamped now original c.state) :
    Bound name now original (fun past world _ => Settled name now original past world)
      (act cfg now p r name c) past world := by
  unfold act
  split
  · rename_i restart
    have ⟨idle, unstamped⟩ := calm (by simp [restart])
    exact tendRestart_idle started unstamped idle
  · split
    · exact notify_unpaged (by simp [Operation.pages]) unpaged
    · rename_i quiet
      exact (calm fun due => quiet due.2).1.settled
  · rename_i other
    exact (calm fun due => other due.1).1.settled

theorem tend_bound {scan : Scan} (started : 1 ≤ now) (scanned : Scanned name original scan)
    (planned : (r.container name).state = (scan.plan cfg now name).state)
    (idle : Idle name now original past world) :
    Bound name now original (fun past world _ => Settled name now original past world)
      (tend cfg now scan r name) past world := by
  unfold tend
  split
  · apply Attempt.bind (saveLegacy_idle idle)
    rintro past₁ world₁ _ ⟨unpaged, saved⟩
    apply act_unpaged started unpaged
    intro quiet
    have unstamped := scanned.unstamped started quiet
    rw [← planned] at unstamped
    exact ⟨⟨unpaged, unstamped.stamped saved⟩, unstamped⟩
  · apply act_unpaged started idle.unpaged
    intro quiet
    have unstamped := scanned.unstamped started quiet
    rw [← planned] at unstamped
    exact ⟨idle, unstamped⟩

theorem tendAll_bound {scan : Scan} {names : List Name} (started : 1 ≤ now)
    (scanned : Scanned name original scan) (nodup : names.Nodup)
    (planned : name ∈ names → (r.container name).state = (scan.plan cfg now name).state)
    (idle : Idle name now original past world) :
    Bound name now original (fun past world _ => Settled name now original past world)
      (tendAll cfg now scan r names) past world := by
  induction names generalizing past world r with
  | nil => exact idle.settled
  | cons head rest induction =>
      rw [List.nodup_cons] at nodup
      by_cases equal : head = name
      · subst equal
        apply Attempt.bind (tend_bound started scanned (planned List.mem_cons_self) idle)
        intro past₁ world₁ r₁ settled
        have others : Sparing head _ (tendAll cfg now scan r₁ rest) :=
          tendAll_leads fun other member operation tends => Operation.tends_spares
            (fun same => nodup.1 (same ▸ member)) tends
        apply Attempt.result_mono (others.settled settled)
        exact fun _ _ _ holds => holds.1
      · have spares : Sparing name _ (tend cfg now scan r head) :=
          tend_tends.mono (fun _ => Operation.tends_spares equal) fun _ same => same
        apply Attempt.bind (spares.idle idle)
        intro past₁ world₁ r₁ ⟨idle₁, same⟩
        apply induction nodup.2 _ idle₁
        intro member
        rw [same name equal]
        exact planned (List.mem_cons_of_mem _ member)

theorem actOn_bound {scan : Scan} (started : 1 ≤ now) (scanned : Scanned name original scan)
    (idle : Idle name now original past world) :
    Bound name now original (fun past world _ => Settled name now original past world)
      (actOn cfg now scan r) past world := by
  apply Attempt.bind (Sparing.idle publish_spares idle)
  intro past₁ world₁ _ idle₁
  apply Attempt.bind (tendAll_bound started scanned scanned.nodup observed_planned idle₁.1)
  intro past₂ world₂ r₂ settled₂
  have listing : Sparing name (fun _ => True) (orFail cfg r₂ globStates) :=
    orFail_leads (fun _ => Operation.publishes_spares) ⟨rfl, fun _ _ _ => trivial⟩
  apply Attempt.bind (listing.settled settled₂)
  intro past₃ world₃ files settled₃
  have removals : Attempt.Leads (fun operation : Operation => operation.saves name = false)
      (fun _ => True) (collect cfg scan r₂ files) :=
    collect_leads
      (fun _ publishes => Operation.spares_saves (Operation.publishes_spares publishes))
      fun _ _ => rfl
  apply Attempt.bind (settled₃.1.bound removals)
  intro past₄ world₄ _ settled₄
  apply Attempt.result_mono (Sparing.settled publish_spares settled₄.1)
  exact fun _ _ _ holds => holds.1

/-- Reading and validating does not touch any file. -/
theorem readScan_idle (idle : Idle name now original past world)
    (file : world.legacy name = original) :
    Bound name now original
      (fun past world scan => Idle name now original past world ∧ Scanned name original scan)
      (orFail cfg r readScan) past world := by
  have narrower : ∀ {world operation answer after},
      system.Step world operation answer after → system.Step world operation answer after :=
    fun step => step
  have keeps : Keeps system (fun operation : Operation => operation.reads = true)
      (fun _ _ => True)
      fun past world => Idle name now original past world ∧ world.legacy name = original := by
    intro past world operation answer after reads step ⟨idle, file⟩
    have spares : operation.spares name = true := by
      cases operation <;> first | rfl | cases reads
    refine ⟨trivial, idle.spared spares step, ?_⟩
    rw [Operation.spares, Bool.and_eq_true] at spares
    rw [system_legacy spares.1 step, file]
  have reading := readScan_reads narrower keeps (fun holds => holds.2) ⟨idle, file⟩
  apply Attempt.bind_iff.mpr
  apply Attempt.outcome_iff.mpr
  apply Guarded.post_mono reading
  intro past₁ world₁ outcome ends
  cases outcome with
  | ok scan => exact ⟨ends.1.1, ends.2⟩
  | error message =>
      apply Attempt.bind (Sparing.idle publish_spares ends.1)
      exact fun _ _ _ idle => idle.1.faithful

theorem execute_bound (idle : Idle name now original past world)
    (file : world.legacy name = original) :
    Bound name now original (fun past world _ => Settled name now original past world)
      (execute cfg now) past world := by
  apply Attempt.bind_iff.mpr
  apply Attempt.ofExcept_iff.mpr
  cases checked : checkConfig cfg now with
  | error message => exact idle.faithful
  | ok _ =>
  have started := checkConfig_started checked
  apply Attempt.call_bind.mpr
  intro read after₁ step₁
  have idle₁ := idle.spared (show Operation.readLedger.spares name = true from rfl) step₁
  have same₁ := system_legacy (show Operation.readLedger.leaves name = true from rfl) step₁
  refine ⟨trivial, ?_⟩
  apply Attempt.bind_iff.mpr
  apply Attempt.ofExcept_iff.mpr
  cases acceptLedger read with
  | error message => exact idle₁.faithful
  | ok r =>
  apply Attempt.bind_iff.mpr
  intro answer after₂ step₂
  have idle₂ := idle₁.spared (show Operation.openLog.spares name = true from rfl) step₂
  have same₂ := system_legacy (show Operation.openLog.leaves name = true from rfl) step₂
  refine ⟨trivial, ?_⟩
  change Except String Unit at answer
  cases answer with
  | error message => exact idle₂.faithful
  | ok _ =>
  apply Attempt.bind (readScan_idle idle₂ (same₂.trans (same₁.trans file)))
  intro past₃ world₃ scan ⟨idle₃, scanned⟩
  exact actOn_bound started scanned idle₃

end Own

/-! ## Failed runs -/

/-- In a run that fails, each new stamp comes with a page, unless a write of the ledger or the
metrics fails just when the page is pending. -/
theorem stamps_paged {run : ScanRun} {message : String}
    (valid : run.Valid system fun scan => (execute scan.1 scan.2).run)
    (failed : run.outcome = some (.error message)) :
    (∀ name, Stamped name run.parameter.2 (run.before.legacy name) run.after →
        Paged name run.moments) ↔
      ∀ name, ¬CutOff name run.parameter.2 (run.before.legacy name) run.moments.reverse := by
  unfold Run.Valid at valid
  rw [failed] at valid
  apply forall_congr'
  intro name
  have start : Idle name run.parameter.2 (run.before.legacy name) [] run.before := by
    have unstamped : ¬Stamped name run.parameter.2 (run.before.legacy name) run.before :=
      fun stamped => stamped.2 stamped.1
    exact ⟨⟨by simp [Paged], iff_of_false id unstamped⟩, unstamped⟩
  have bound : Bound name run.parameter.2 (run.before.legacy name) _
      (execute run.parameter.1 run.parameter.2) [] run.before := execute_bound start rfl
  have result := bound.result valid
  have faithful : Faithful name run.parameter.2 (run.before.legacy name) run.moments.reverse
      run.after := by
    rw [List.append_nil] at result
    exact result
  simpa [Faithful, Paged] using faithful

/-- A host on which the metrics cannot be written any more once the disk is full. -/
def fullDisk (full : Past interface World → Result → Bool) : Oracle interface World :=
  fun past world operation =>
    match operation with
    | .writeTextfile r _ =>
        (if full past r then .error "no space left on device" else .ok (), world)
    | operation =>
        steadyHost [ascii "web"] (ascii "web\n") (ascii "web|running|unhealthy\n") past world
          operation

theorem fullDisk_permitted (full : Past interface World → Result → Bool) :
    Permitted system (fullDisk full) := by
  intro past world operation
  cases operation with
  | writeTextfile r budget => rfl
  | _ =>
      exact steadyHost_permitted [ascii "web"] (ascii "web\n")
        (ascii "web|running|unhealthy\n") past world _

/-- A container that has used up its restarts, and nobody was told so far. -/
def exhausted : World :=
  ⟨.absent,
    Function.update (fun _ => none) (ascii "web") (some (State.bytes ⟨5, 1, 900, 0⟩))⟩

def exhaustedScan (full : Past interface World → Result → Bool) : ScanRun :=
  hostScan (fullDisk full) samplePolicy 1000 exhausted

theorem exhaustedScan_valid (full : Past interface World → Result → Bool) :
    (exhaustedScan full).Valid system fun scan => (execute scan.1 scan.2).run :=
  hostScan_valid (fullDisk_permitted full) samplePolicy 1000 exhausted

/-- The disk fills up after the page. -/
def pagedScan : ScanRun :=
  exhaustedScan fun past _ => past.any fun moment => moment.operation.pages (ascii "web")

theorem stamps_paged_pagedScan :
    (Stamped (ascii "web") 1000 (exhausted.legacy (ascii "web")) pagedScan.after ∧
      Paged (ascii "web") pagedScan.moments) ∧
    ((∀ name, Stamped name 1000 (exhausted.legacy name) pagedScan.after →
        Paged name pagedScan.moments) ↔
      ∀ name, ¬CutOff name 1000 (exhausted.legacy name) pagedScan.moments.reverse) := by
  have computed : (Stamped (ascii "web") 1000 (exhausted.legacy (ascii "web")) pagedScan.after ∧
      Paged (ascii "web") pagedScan.moments) ∧
      pagedScan.outcome = some (.error "no space left on device") := by
    rw [Stamped, Paged]
    decide +kernel
  exact ⟨computed.1, stamps_paged (exhaustedScan_valid _) computed.2⟩

/-- The disk fills up when the metrics of the first notification are written. -/
def fullDiskScan : ScanRun := exhaustedScan fun _ r => r.notifications ≠ 0

theorem stamp_without_page :
    ¬∀ (run : ScanRun) (message : String),
      run.Valid system (fun scan => (execute scan.1 scan.2).run) →
      run.outcome = some (.error message) →
      ∀ name, Stamped name run.parameter.2 (run.before.legacy name) run.after →
        Paged name run.moments := by
  intro claim
  have valid : fullDiskScan.Valid system (fun scan => (execute scan.1 scan.2).run) :=
    exhaustedScan_valid _
  have failed : fullDiskScan.outcome = some (.error "no space left on device") := by
    decide +kernel
  have stamped : Stamped (ascii "web") 1000 (exhausted.legacy (ascii "web"))
      fullDiskScan.after := by
    constructor
    · decide +kernel
    · decide +kernel
  have ⟨moment, member, pages⟩ := claim fullDiskScan _ valid failed (ascii "web") stamped
  have silent : fullDiskScan.moments.all
      (fun moment => !moment.operation.pages (ascii "web")) = true := by decide +kernel
  have quiet := List.all_eq_true.mp silent moment member
  rw [pages] at quiet
  cases quiet

end Homelab.Watchdog
