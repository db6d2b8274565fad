import Homelab.Autodeploy.Rollback

/-! # The drift gauge of the deny-listed targets

A sample is computed from what git printed and from the status of the planner's
pipeline. Whether git computed the diff at all is not looked at.
-/

namespace Homelab.Autodeploy

open Effects Text

structure Reading where
  target : String
  marker : String
  origin : String
  diff : Diff
  reported : Bool

namespace Reading

def changed (reading : Reading) : List String := readLines reading.diff.printed

def drift (reading : Reading) : Bool :=
  decide (reading.changed ≠ []) && reading.reported

def sample (reading : Reading) : String × Bool := (reading.target, reading.drift)

/-- The sample is 0 only if the diff was computed and no changed path implies the
target, and 1 whenever one does. -/
structure Truthful (rules : Rules) (reading : Reading) : Prop where
  zero : reading.drift = false → reading.diff.computed = true ∧
    ¬Listed rules reading.changed reading.target
  one : reading.diff.computed = true → Listed rules reading.changed reading.target →
    reading.drift = true

/-- The diff was computed and the planner reports the target if a path implies it;
or the diff failed, but only after paths for which the planner reports it. -/
def Heard (rules : Rules) (reading : Reading) : Prop :=
  match reading.diff.computed with
  | true => Listed rules reading.changed reading.target → reading.reported = true
  | false => reading.changed ≠ [] ∧ reading.reported = true

theorem truthful_iff_heard {rules : Rules} {reading : Reading} :
    reading.Truthful rules ↔ reading.Heard rules := by
  have drift : reading.drift = true ↔ reading.changed ≠ [] ∧ reading.reported = true := by
    simp [Reading.drift]
  unfold Heard
  cases computed : reading.diff.computed with
  | true =>
      constructor
      · intro truthful implied
        exact (drift.mp (truthful.one computed implied)).2
      · intro reports
        have lights (implied : Listed rules reading.changed reading.target) :
            reading.drift = true := by
          apply drift.mpr
          refine ⟨?_, reports implied⟩
          intro nothing
          rcases implied with ⟨path, member, _⟩
          rw [nothing] at member
          cases member
        constructor
        · intro dark
          refine ⟨computed, fun implied => ?_⟩
          rw [lights implied] at dark
          cases dark
        · exact fun _ => lights
  | false =>
      constructor
      · intro truthful
        apply drift.mp
        by_contra dark
        have known := (truthful.zero (Bool.eq_false_iff.mpr dark)).1
        rw [computed] at known
        cases known
      · intro heard
        have lights := drift.mpr heard
        constructor
        · intro dark
          rw [lights] at dark
          cases dark
        · intro known
          rw [computed] at known
          cases known

end Reading

/-! ## What a sample was computed from -/

def Answered (past : Past interface World) (operation : Operation)
    (answer : Answer operation) : Prop :=
  ∃ before after, ⟨before, operation, answer, after⟩ ∈ past

structure Reading.Seen (reading : Reading) (past : Past interface World) : Prop where
  marker : ∃ printed, Answered past (.denylistMarker reading.target) printed ∧
    substitute printed = reading.marker ∧ reading.marker ≠ ""
  diff : Answered past (.denylistDiff reading.marker reading.origin) reading.diff
  plan : reading.changed ≠ [] →
    Answered past (.denylistPlan reading.target reading.changed) reading.reported

def Emits (origin : String) (past : Past interface World)
    (moment : Moment interface World) : Prop :=
  ∀ samples, moment.operation = .writeDrift samples →
    ∃ readings : List Reading, samples = readings.map Reading.sample ∧
      ∀ reading ∈ readings, reading.origin = origin ∧ reading.Seen past

section

variable {cfg : Config} {repo : Repository} {origin : String}
  {past : Past interface World} {world : World}

theorem Answered.cons {operation : Operation} {answer : Answer operation}
    {moment : Moment interface World} (answered : Answered past operation answer) :
    Answered (moment :: past) operation answer := by
  rcases answered with ⟨before, after, member⟩
  exact ⟨before, after, List.mem_cons_of_mem _ member⟩

theorem Answered.head {operation : Operation} {answer : Answer operation}
    {before after : World} :
    Answered (⟨before, operation, answer, after⟩ :: past) operation answer :=
  ⟨before, after, List.mem_cons_self⟩

theorem Reading.Seen.cons {reading : Reading} {moment : Moment interface World}
    (seen : reading.Seen past) : reading.Seen (moment :: past) := by
  rcases seen with ⟨⟨printed, answered, marker⟩, diff, plan⟩
  exact ⟨⟨printed, answered.cons, marker⟩, diff.cons, fun nonempty => (plan nonempty).cons⟩

def AllSeen (origin : String) (readings : List Reading) (past : Past interface World) :
    Prop :=
  ∀ reading ∈ readings, reading.origin = origin ∧ reading.Seen past

theorem AllSeen.cons {readings : List Reading} {moment : Moment interface World}
    (seen : AllSeen origin readings past) : AllSeen origin readings (moment :: past) :=
  fun reading member => ⟨(seen reading member).1, (seen reading member).2.cons⟩

theorem AllSeen.add {readings : List Reading} {reading : Reading}
    (seen : AllSeen origin readings past) (same : reading.origin = origin)
    (now : reading.Seen past) : AllSeen origin (reading :: readings) past :=
  List.forall_mem_cons.mpr ⟨⟨same, now⟩, seen⟩

abbrev Gauges {α : Type} (cfg : Config) (repo : Repository) (origin : String)
    (post : Past interface World → α → Prop) (attempt : Sh α)
    (past : Past interface World) (world : World) : Prop :=
  Attempt.Guarded (system cfg repo) (Emits origin) (fun past _ result => post past result)
    (fun _ _ _ => True) attempt past world

theorem emits_of_ne {moment : Moment interface World}
    (other : ∀ samples, moment.operation ≠ .writeDrift samples) :
    Emits origin past moment :=
  fun samples same => absurd same (other samples)

/-- The readings so far stay seen while the next target is looked at. -/
theorem denylistDrift_gauges {readings : List Reading} {target printed : String}
    {diff : Diff} (seen : AllSeen origin readings past)
    (marked : Answered past (.denylistMarker target) printed)
    (present : substitute printed ≠ "")
    (listed : Answered past (.denylistDiff (substitute printed) origin) diff) :
    Gauges cfg repo origin
      (fun past drift => ∃ reading : Reading, reading.sample = (target, drift) ∧
        AllSeen origin (reading :: readings) past)
      (denylistDrift target (readLines diff.printed)) past world := by
  unfold denylistDrift
  split
  · next nothing =>
      let reading : Reading := ⟨target, substitute printed, origin, diff, false⟩
      have none : reading.changed = [] := nothing
      have dark : reading.drift = false := by simp [Reading.drift, none]
      refine ⟨reading, by rw [Reading.sample, dark], ?_⟩
      apply seen.add rfl
      exact ⟨⟨printed, marked, rfl, present⟩, listed,
        fun impossible => absurd none impossible⟩
  · next some =>
      apply Attempt.lift_iff.mpr
      intro reported after _
      let reading : Reading := ⟨target, substitute printed, origin, diff, reported⟩
      have lit : reading.drift = reported := by
        have nonempty : reading.changed ≠ [] := some
        simp [Reading.drift, nonempty, reading]
      refine ⟨emits_of_ne nofun, reading, by rw [Reading.sample, lit], ?_⟩
      apply seen.cons.add rfl
      exact ⟨⟨printed, marked.cons, rfl, present⟩, listed.cons, fun _ => Answered.head⟩

theorem driftSamples_gauges {readings : List Reading} {targets : List String}
    (seen : AllSeen origin readings past) :
    Gauges cfg repo origin
      (fun past samples => ∃ found : List Reading, samples = found.map Reading.sample ∧
        AllSeen origin (found ++ readings) past)
      (driftSamples origin targets) past world := by
  induction targets generalizing readings past world with
  | nil => exact ⟨[], rfl, seen⟩
  | cons target rest induction =>
      apply ask_bind.mpr
      intro printed world₁ _
      refine ⟨emits_of_ne nofun, ?_⟩
      dsimp only
      rcases eq_or_ne (substitute printed) "" with blank | present
      · rw [if_pos blank]
        exact induction seen.cons
      rw [if_neg present]
      apply ask_bind.mpr
      intro diff world₂ _
      refine ⟨emits_of_ne nofun, ?_⟩
      apply Attempt.bind (denylistDrift_gauges seen.cons.cons Answered.head.cons present
        Answered.head)
      intro past₃ world₃ drift ⟨reading, sample, seen₃⟩
      apply Attempt.bind (induction seen₃)
      intro past₄ world₄ samples ⟨found, equal, seen₄⟩
      refine ⟨reading :: found, ?_, ?_⟩
      · rw [List.map_cons, sample, equal]
      · intro other member
        apply seen₄ other
        rw [List.cons_append] at member
        rw [List.mem_append]
        rcases List.mem_cons.mp member with head | tail
        · exact .inr (head ▸ List.mem_cons_self)
        · exact (List.mem_append.mp tail).imp_right (List.mem_cons_of_mem _)

theorem driftWatch_gauges :
    Gauges cfg repo origin (fun _ _ => True) (driftWatch cfg origin) past world := by
  unfold driftWatch
  generalize cfg.neverAutoArr = targets
  apply ask_bind.mpr
  intro present world₁ _
  refine ⟨emits_of_ne nofun, ?_⟩
  split
  · split
    · trivial
    · have none : AllSeen origin [] (⟨world, .textfileDir, present, world₁⟩ :: past) :=
        fun reading member => absurd member List.not_mem_nil
      apply Attempt.bind (driftSamples_gauges none)
      intro past₂ world₂ samples ⟨found, equal, seen⟩
      apply ask_bind.mpr
      intro written world₃ _
      refine ⟨?_, trivial⟩
      intro emitted same
      cases same
      rw [List.append_nil] at seen
      exact ⟨found, equal, seen⟩
  · trivial

/-! ## A whole run -/

def Operation.undrifted : Operation → Prop
  | .writeDrift _ => False
  | _ => True

theorem Operation.reporting.undrifted {operation : Operation}
    (reporting : operation.reporting) : operation.undrifted := by
  cases operation <;> trivial

theorem Operation.recording.undrifted {operation : Operation}
    (recording : operation.recording) : operation.undrifted := by
  cases operation <;> trivial

theorem Operation.working.undrifted {operation : Operation}
    (working : operation.working) : operation.undrifted := by
  cases operation <;> trivial

theorem log_undrifted (message : Message) : (log message).Within Operation.undrifted :=
  (log_reporting message).within.mono fun _ reporting => reporting.undrifted

theorem notify_undrifted (message : Message) (priority tags : String) :
    (notify cfg message priority tags).Within Operation.undrifted :=
  (notify_reporting message priority tags).within.mono fun _ reporting =>
    reporting.undrifted

theorem progress_undrifted (message : Message) (priority tags : String) :
    (progress cfg message priority tags).Within Operation.undrifted :=
  (progress_reporting message priority tags).within.mono fun _ reporting =>
    reporting.undrifted

theorem finish_undrifted {α : Type} (runOk : Bool) (status : Nat) :
    (finish runOk status : Sh α).Within Operation.undrifted :=
  (finish_recording runOk status).mono fun _ recording => recording.undrifted

theorem checkout_undrifted (sha : String) :
    (checkout sha).Within Operation.undrifted := by
  apply Attempt.Within.bind (ask_within trivial)
  intro _
  apply Attempt.Within.bind (ask_within trivial)
  intro lfs
  change Lfs at lfs
  cases lfs with
  | pulled => exact Attempt.within_pure ()
  | _ => exact log_undrifted _

theorem readLastGood_undrifted : readLastGood.Within Operation.undrifted := by
  apply Attempt.Within.bind (ask_within trivial)
  intro lastGood
  dsimp only
  split
  · exact Attempt.Within.bind (ask_within trivial) fun _ => Attempt.within_pure _
  · exact Attempt.within_pure _

theorem ciGate_undrifted (origin : String) :
    (ciGate cfg origin).Within Operation.undrifted := by
  unfold ciGate
  split
  · exact Attempt.within_pure ()
  · apply Attempt.Within.bind (ask_within trivial)
    intro conclusion
    dsimp only
    generalize ciPassed (substitute conclusion) = passed
    cases passed with
    | true => exact progress_undrifted _ _ _
    | false =>
        apply Attempt.Within.bind (log_undrifted _)
        intro _
        apply Attempt.Within.bind (notify_undrifted _ _ _)
        exact fun _ => finish_undrifted true 0

theorem adopt_undrifted (job : Job) : (adopt cfg job).Within Operation.undrifted := by
  apply Attempt.Within.bind (Attempt.Within.bind (ask_within trivial)
    fun _ => Attempt.within_pure _)
  intro _
  apply Attempt.Within.bind (checkout_undrifted _)
  intro _
  apply Attempt.Within.bind (progress_undrifted _ _ _)
  intro _
  apply Attempt.Within.bind (ask_within trivial)
  intro _
  apply Attempt.Within.bind (ask_within trivial)
  intro _
  apply Attempt.Within.bind (ask_within trivial)
  exact fun _ => Attempt.within_pure _

theorem recordSuccess_undrifted (origin : String) :
    (recordSuccess origin).Within Operation.undrifted := by
  apply Attempt.Within.bind (ask_within trivial)
  intro now
  exact Attempt.Within.bind (ask_within trivial) fun _ => Attempt.within_pure _

theorem adoptOnly_undrifted (job : Job) (skipped : List String) :
    (adoptOnly cfg job skipped).Within Operation.undrifted := by
  unfold adoptOnly
  split
  · apply Attempt.Within.bind (log_undrifted _)
    intro _
    apply Attempt.Within.bind (recordSuccess_undrifted _)
    intro _
    apply Attempt.Within.bind (notify_undrifted _ _ _)
    exact fun _ => finish_undrifted true 0
  · apply Attempt.Within.bind (log_undrifted _)
    intro _
    apply Attempt.Within.bind (recordSuccess_undrifted _)
    intro _
    apply Attempt.Within.bind (progress_undrifted _ _ _)
    exact fun _ => finish_undrifted true 0

theorem rollback_undrifted (job : Job) (targets : List String) (failed : String) :
    (rollback cfg job targets failed).Within Operation.undrifted := by
  apply Attempt.Within.bind (checkout_undrifted _)
  intro _
  apply Attempt.Within.bind (notify_undrifted _ _ _)
  intro _
  apply Attempt.Within.bind (ask_within trivial)
  intro restore
  apply Attempt.Within.bind ((restoreAll_steady _ _).within.mono
    fun _ working => working.undrifted)
  intro rbFail
  apply Attempt.Within.bind ((recordFail_recording _).within.mono
    fun _ recording => recording.undrifted)
  intro _
  apply Attempt.Within.bind ((reportRollback_reporting _ _).within.mono
    fun _ reporting => reporting.undrifted)
  exact fun _ => finish_undrifted false 1

theorem deploy_undrifted (job : Job) (plan : Plan) :
    (deploy cfg job plan).Within Operation.undrifted := by
  apply Attempt.Within.bind (log_undrifted _)
  intro _
  apply Attempt.Within.bind (notify_undrifted _ _ _)
  intro _
  apply Attempt.Within.bind ((deployAll_steady _).within.mono
    fun _ working => working.undrifted)
  intro failed
  cases failed with
  | some target => exact rollback_undrifted job plan.targets target
  | none =>
      apply Attempt.Within.bind (recordSuccess_undrifted _)
      intro _
      apply Attempt.Within.bind (log_undrifted _)
      intro _
      apply Attempt.Within.bind (notify_undrifted _ _ _)
      exact fun _ => finish_undrifted true 0

def Gauged (past : Past interface World) (moment : Moment interface World) : Prop :=
  ∃ origin, Emits origin past moment ∧ ∀ samples,
    moment.operation = .writeDrift samples → ∃ tag printed,
      Answered past (.revParse tag) printed ∧ substitute printed = origin

theorem gauged_of_undrifted {moment : Moment interface World}
    (undrifted : moment.operation.undrifted) : Gauged past moment := by
  have other : ∀ samples, moment.operation ≠ .writeDrift samples := by
    intro samples same
    rw [same] at undrifted
    exact undrifted
  exact ⟨"", emits_of_ne other, fun samples same => absurd same (other samples)⟩

abbrev GaugesAll {α : Type} (cfg : Config) (repo : Repository) (attempt : Sh α)
    (past : Past interface World) (world : World) : Prop :=
  Attempt.Guarded (system cfg repo) Gauged (fun _ _ _ => True) (fun _ _ _ => True)
    attempt past world

theorem undrifted_gauges {α : Type} {attempt : Sh α}
    (within : attempt.Within Operation.undrifted) :
    GaugesAll cfg repo attempt past world :=
  within.guarded (fun _ _ _ _ _ undrifted _ _ => ⟨gauged_of_undrifted undrifted, trivial⟩)
    trivial

theorem driftWatch_gauged {tag printed : String}
    (resolved : Answered past (.revParse tag) printed) :
    GaugesAll cfg repo (driftWatch cfg (substitute printed)) past world := by
  have gauges : Gauges cfg repo (substitute printed) (fun _ _ => True)
    (driftWatch cfg (substitute printed)) past world := driftWatch_gauges
  apply Effects.Guarded.mono (Effects.Guarded.grows gauges List.suffix_rfl)
  · intro later moment ⟨suffix, emits⟩
    refine ⟨_, emits, fun _ _ => ⟨tag, printed, ?_, rfl⟩⟩
    rcases resolved with ⟨before, after, member⟩
    exact ⟨before, after, suffix.subset member⟩
  · intro later world outcome _
    cases outcome <;> trivial

theorem gate_gauges : GaugesAll cfg repo (gate cfg) past world := by
  have stops (message : Message) (runOk : Bool) (status : Nat) {past world} :
      GaugesAll cfg repo (do log message; finish runOk status : Sh Job) past world :=
    undrifted_gauges ((log_undrifted message).bind fun _ => finish_undrifted runOk status)
  apply ask_bind.mpr
  intro locked world₁ _
  refine ⟨gauged_of_undrifted trivial, ?_⟩
  split
  swap
  · exact undrifted_gauges ((log_undrifted _).bind fun _ => Attempt.within_throw 0)
  apply ask_bind.mpr
  intro entered world₂ _
  refine ⟨gauged_of_undrifted trivial, ?_⟩
  split
  swap
  · exact stops _ false 1
  apply ask_bind.mpr
  intro fetched world₃ _
  refine ⟨gauged_of_undrifted trivial, ?_⟩
  split
  swap
  · exact stops _ false 0
  apply ask_bind.mpr
  intro tag world₄ _
  refine ⟨gauged_of_undrifted trivial, ?_⟩
  dsimp only
  split
  · exact stops _ true 0
  apply ask_bind.mpr
  intro printed world₅ _
  refine ⟨gauged_of_undrifted trivial, ?_⟩
  have still {past : Past interface World}
      (resolved : Answered past (.revParse (substitute tag)) printed) :
      Attempt.Guarded (system cfg repo) Gauged
        (fun past _ _ => Answered past (.revParse (substitute tag)) printed)
        (fun _ _ _ => True) readLastGood past world₅ := by
    apply Attempt.mono (readLastGood_undrifted.guarded _ resolved)
      (fun _ _ _ holds => holds) fun _ _ _ _ => trivial
    exact fun _ _ _ _ _ undrifted _ answered =>
      ⟨gauged_of_undrifted undrifted, answered.cons⟩
  apply Attempt.bind (still Answered.head)
  intro past₆ world₆ lastGood resolved₆
  split
  · exact stops _ false 0
  apply Attempt.bind (driftWatch_gauged resolved₆)
  intro past₇ world₇ _ _
  apply undrifted_gauges
  apply Attempt.Within.bind (ask_within trivial)
  intro needed
  split
  · apply Attempt.Within.bind (progress_undrifted _ _ _)
    intro _
    apply Attempt.Within.bind (ciGate_undrifted _)
    exact fun _ => Attempt.within_pure _
  · exact (log_undrifted _).bind fun _ => finish_undrifted true 0

theorem controller_gauges : GaugesAll cfg repo (controller cfg) past world := by
  apply Attempt.bind gate_gauges
  intro past₁ world₁ job _
  apply undrifted_gauges
  apply Attempt.Within.bind (adopt_undrifted job)
  intro plan
  split
  · exact adoptOnly_undrifted job plan.skipped
  · exact deploy_undrifted job plan

end

/-- Each sample of a run is computed from one reading at the run's commit, and it
is truthful exactly if the diff and the planner were heard. -/
theorem drift_gauge_truthful {cfg : Config} {repo : Repository} {run : CdRun}
    (valid : run.Valid (system cfg repo) (fun _ => (controller cfg).run))
    {early late : List (Moment interface World)} {moment : Moment interface World}
    (split : run.moments = early ++ moment :: late) {samples : List (String × Bool)}
    (written : moment.operation = .writeDrift samples) :
    ∃ readings : List Reading, samples = readings.map Reading.sample ∧
      ∀ reading ∈ readings, reading.Seen early.reverse ∧
        (∃ tag printed, Answered early.reverse (.revParse tag) printed ∧
          substitute printed = reading.origin) ∧
        (reading.Truthful cfg.rules ↔ reading.Heard cfg.rules) := by
  have gauges : GaugesAll cfg repo (controller cfg) [] run.before := controller_gauges
  have gauged := Effects.Guarded.moment_good gauges valid split
  rw [List.append_nil] at gauged
  rcases gauged with ⟨origin, emits, resolved⟩
  rcases emits samples written with ⟨readings, equal, seen⟩
  refine ⟨readings, equal, fun reading member => ⟨(seen reading member).2, ?_,
    Reading.truthful_iff_heard⟩⟩
  rw [(seen reading member).1]
  exact resolved samples written

/-! ## A marker that git does not know -/

/-- `base` is deny-listed. -/
def markedConfig : Config := { pilotConfig with neverAuto := "base" }

/-- The marker `x` of `base` is no commit of the checkout, so `git diff` fails. -/
def unknownMarker : Choice
  | .denylistMarker _ => "x"
  | .denylistDiff _ _ => (⟨false, ""⟩ : Diff)
  | operation => willing "b" "" operation

def unknownRun : CdRun :=
  hostRun markedConfig pilotRepository unknownMarker (pilotWorld "a") 10

def failedDiff (moment : Moment interface World) : Bool :=
  match moment.operation, moment.answer with
  | .denylistDiff marker origin, (diff : Diff) =>
      decide (marker = "x" ∧ origin = "b" ∧ diff = ⟨false, ""⟩)
  | _, _ => false

def markerRead (moment : Moment interface World) : Bool :=
  match moment.operation, moment.answer with
  | .denylistMarker target, (printed : String) =>
      decide (target = "base" ∧ printed = "x")
  | _, _ => false

def zeroSample (moment : Moment interface World) : Bool :=
  match moment.operation with
  | .writeDrift samples => decide (samples = [("base", false)])
  | _ => false

theorem unknownRun_computed :
    ((unknownRun.moments.drop 9).head?.any zeroSample &&
      (unknownRun.moments.take 9).any failedDiff &&
      (unknownRun.moments.take 9).any markerRead) = true := by
  decide +kernel

theorem failedDiff_answered {past : Past interface World}
    (found : past.any failedDiff = true) :
    Answered past.reverse (.denylistDiff "x" "b") ⟨false, ""⟩ := by
  rcases List.any_eq_true.mp found with ⟨⟨before, operation, answer, after⟩, member, failed⟩
  cases operation with
  | denylistDiff marker origin =>
      have same : marker = "x" ∧ origin = "b" ∧ answer = ⟨false, ""⟩ :=
        of_decide_eq_true failed
      rcases same with ⟨rfl, rfl, rfl⟩
      exact ⟨before, after, List.mem_reverse.mpr member⟩
  | _ => cases failed

theorem markerRead_answered {past : Past interface World}
    (found : past.any markerRead = true) :
    Answered past.reverse (.denylistMarker "base") "x" := by
  rcases List.any_eq_true.mp found with ⟨⟨before, operation, answer, after⟩, member, read⟩
  cases operation with
  | denylistMarker target =>
      have same : target = "base" ∧ answer = "x" := of_decide_eq_true read
      rcases same with ⟨rfl, rfl⟩
      exact ⟨before, after, List.mem_reverse.mpr member⟩
  | _ => cases read

theorem unknownRun_split : ∃ moment late,
    unknownRun.moments = unknownRun.moments.take 9 ++ moment :: late ∧
      moment.operation = .writeDrift [("base", false)] := by
  have computed := unknownRun_computed
  simp only [Bool.and_eq_true] at computed
  have zeroed := computed.1.1
  have parts := (List.take_append_drop 9 unknownRun.moments).symm
  cases rest : unknownRun.moments.drop 9 with
  | nil => simp [rest] at zeroed
  | cons moment late =>
      rw [rest] at parts zeroed
      refine ⟨moment, late, parts, ?_⟩
      have zero : zeroSample moment = true := by simpa using zeroed
      unfold zeroSample at zero
      split at zero
      · next samples same => rw [same, of_decide_eq_true zero]
      · cases zero

theorem unknownRun_valid : unknownRun.Valid (system markedConfig pilotRepository)
    (fun _ => (controller markedConfig).run) :=
  hostRun_valid unknownMarker (pilotWorld "a") 10

theorem drift_gauge_truthful_unknownRun :
    ∃ readings : List Reading, [("base", false)] = readings.map Reading.sample ∧
      ∀ reading ∈ readings, reading.Seen (unknownRun.moments.take 9).reverse ∧
        (∃ tag printed, Answered (unknownRun.moments.take 9).reverse (.revParse tag)
          printed ∧ substitute printed = reading.origin) ∧
        (reading.Truthful markedConfig.rules ↔ reading.Heard markedConfig.rules) := by
  rcases unknownRun_split with ⟨moment, late, split, written⟩
  exact drift_gauge_truthful unknownRun_valid split written

/-- A diff that git could not compute is published as no drift. -/
theorem unknown_marker_reads_zero :
    ∃ (run : CdRun) (early late : List (Moment interface World))
        (moment : Moment interface World) (reading : Reading),
      run.Valid (system markedConfig pilotRepository)
        (fun _ => (controller markedConfig).run) ∧
      run.moments = early ++ moment :: late ∧
      moment.operation = .writeDrift [reading.sample] ∧ reading.Seen early.reverse ∧
      ¬ reading.Truthful markedConfig.rules := by
  rcases unknownRun_split with ⟨moment, late, split, written⟩
  have computed := unknownRun_computed
  simp only [Bool.and_eq_true] at computed
  have marker : substitute "x" = "x" ∧ "x" ≠ "" := by decide
  have nothing : readLines "" = [] := by decide
  refine ⟨unknownRun, unknownRun.moments.take 9, late, moment,
    ⟨"base", "x", "b", ⟨false, ""⟩, false⟩, unknownRun_valid, split, ?_, ?_, ?_⟩
  · rw [written]
    rfl
  · exact ⟨⟨"x", markerRead_answered computed.2, marker⟩,
      failedDiff_answered computed.1.2, fun some => absurd nothing some⟩
  · intro truthful
    cases (truthful.zero rfl).1

end Homelab.Autodeploy
