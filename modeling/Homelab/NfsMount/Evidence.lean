import Homelab.Effects.Simulation
import Homelab.NfsMount.Host

/-! # What the supervisor acts on

An export is unmounted or mounted only for what was observed of this export, in this
pass and in the one before.
-/

namespace Homelab.NfsMount

open Effects Text

/-! ## Observations and actions -/

def Unmounts (name : Export) : Operation → Prop
  | .launch command _ => command = umount name.target ∨ command = diskutil name.target
  | _ => False

def Mounts (name : Export) : Operation → Prop
  | .launch command _ => ∃ source, command = mountNfs source name.target
  | _ => False

def Announces (name : Export) : Operation → Prop
  | .announce _ other _ => other = name
  | _ => False

def Succeeded (command : Command) (moment : Moment interface World) : Prop :=
  ∃ before timeout completed after,
    moment = ⟨before, .launch command timeout, .finished completed, after⟩ ∧
    completed.returncode = 0

def Reachable (past : List (Moment interface World)) : Prop :=
  ∃ moment ∈ past, ∃ ip ∈ sources, Succeeded (netcat ip) moment

def Readable (cfg : Config) (name : Export) (past : List (Moment interface World)) :
    Prop :=
  ∃ moment ∈ past, ∃ path ∈ name.probes, Succeeded (readProbeCommand cfg path) moment

def Inspected (cfg : Config) (world : World) (moments : List (Moment interface World))
    (exports : PerExport Item) : Prop :=
  ∃ inspection middle rest, moments = inspection ++ rest ∧
    Executes system (inspect cfg).run world inspection middle (some (.ok exports))

/-! ## Commands that neither mount nor unmount -/

def Quiet (command : Command) : Prop :=
  ∀ name : Export, command ≠ umount name.target ∧ command ≠ diskutil name.target ∧
    ∀ source, command ≠ mountNfs source name.target

theorem quiet_mountList : Quiet mountList := by
  simp [Quiet, mountList, umount, diskutil, mountNfs]

theorem quiet_nfsstat : Quiet nfsstat := by
  simp [Quiet, nfsstat, umount, diskutil, mountNfs]

theorem quiet_readProbe (cfg : Config) (path : String) :
    Quiet (readProbeCommand cfg path) := by
  simp [Quiet, readProbeCommand, umount, diskutil, mountNfs]

theorem quiet_netcat (ip : String) : Quiet (netcat ip) := by
  simp [Quiet, netcat, umount, diskutil, mountNfs]

theorem quiet_mkdir (target : String) : Quiet (mkdir target) := by
  simp [Quiet, mkdir, umount, diskutil, mountNfs]

theorem quiet_launchctlPrint (label : String) : Quiet (launchctlPrint label) := by
  simp [Quiet, launchctlPrint, umount, diskutil, mountNfs]

theorem quiet_bootout (label : String) : Quiet (bootout label) := by
  simp [Quiet, bootout, umount, diskutil, mountNfs]

theorem quiet_bootstrap (domain : String) : Quiet (bootstrap domain) := by
  simp [Quiet, bootstrap, umount, diskutil, mountNfs]

theorem quiet_publish (cfg : Config) : Quiet (publishCommand cfg) := by
  simp [Quiet, publishCommand, umount, diskutil, mountNfs]

/-! ## Time goes on -/

/-- Nothing was announced since `before`, when the clock was at `clock`. -/
structure Since (before : Past interface World) (clock : ℚ)
    (past : Past interface World) (world : World) : Prop where
  grown : ∃ newer, past = newer ++ before ∧
    ∀ moment ∈ newer, ∀ name, ¬Announces name moment.operation
  later : clock ≤ world.clock

section

variable {cfg : Config} {before past : Past interface World} {world after : World}
  {clock : ℚ} {good : Past interface World → Moment interface World → Prop}

theorem Since.now : Since past world.clock past world :=
  ⟨⟨[], rfl, by simp⟩, le_rfl⟩

theorem Since.subset (since : Since before clock past world) : before ⊆ past := by
  rcases since.grown with ⟨newer, rfl, _⟩
  exact List.subset_append_right newer before

theorem Since.trans {middle : Past interface World} {later : ℚ}
    (first : Since before clock middle after) (second : Since middle later past world)
    (ordered : after.clock ≤ world.clock) : Since before clock past world := by
  rcases first with ⟨⟨newer, rfl, none⟩, passed⟩
  rcases second with ⟨⟨newest, rfl, noneLater⟩, _⟩
  refine ⟨⟨newest ++ newer, by simp, ?_⟩, passed.trans ordered⟩
  intro moment member
  rcases List.mem_append.mp member with member | member
  · exact noneLater moment member
  · exact none moment member

theorem Since.step {operation : Operation} {answer : Answer operation}
    (since : Since before clock past world)
    (silent : ∀ name, ¬Announces name operation)
    (step : system.Step world operation answer after) :
    Since before clock (⟨world, operation, answer, after⟩ :: past) after := by
  rcases since with ⟨⟨newer, rfl, none⟩, passed⟩
  exact ⟨⟨_ :: newer, rfl, List.forall_mem_cons.mpr ⟨silent, none⟩⟩,
    passed.trans (clock_le step)⟩

theorem Uses.silent {commands : Command → Prop} {operation : Operation}
    (uses : Uses commands operation) (name : Export) : ¬Announces name operation := by
  cases operation with
  | announce => exact uses.elim
  | _ => exact id

def Acts (name : Export) (operation : Operation) : Prop :=
  Unmounts name operation ∨ Mounts name operation ∨ Announces name operation

/-- Operations that do nothing about any export are always good. -/
def Calm (good : Past interface World → Moment interface World → Prop) : Prop :=
  ∀ past moment, (∀ name, ¬Acts name moment.operation) → good past moment

theorem not_acts_time (name : Export) : ¬Acts name .time := by
  rintro (impossible | impossible | impossible) <;> exact impossible

theorem not_acts_monotonic (name : Export) : ¬Acts name .monotonic := by
  rintro (impossible | impossible | impossible) <;> exact impossible

theorem since_keeps {commands : Command → Prop} (calm : Calm good)
    (each : ∀ past world command timeout answer after, commands command →
      ¬Quiet command → Since before clock past world →
      good past ⟨world, .launch command timeout, answer, after⟩) :
    Keeps system (Uses commands) good (Since before clock) := by
  intro past world operation answer after uses step since
  refine ⟨?_, since.step uses.silent step⟩
  by_cases acts : ∃ name, Acts name operation
  · rcases acts with ⟨name, off | on | announced⟩
    · cases operation with
      | launch command timeout =>
          refine each _ _ _ _ _ _ uses (fun quiet => ?_) since
          exact off.elim (quiet name).1 (quiet name).2.1
      | _ => exact off.elim
    · cases operation with
      | launch command timeout =>
          refine each _ _ _ _ _ _ uses (fun quiet => ?_) since
          rcases on with ⟨source, same⟩
          exact (quiet name).2.2 source same
      | _ => exact on.elim
    · exact absurd announced (uses.silent name)
  · exact calm _ _ (not_exists.mp acts)

theorem quiet_keeps (calm : Calm good) :
    Keeps system (Uses Quiet) good (Since before clock) :=
  since_keeps calm fun _ _ _ _ _ _ quiet loud _ => absurd quiet loud

theorem JustFinished.succeeded {command : Command} {timeout : Nat} {completed : Completed}
    (finished : JustFinished command timeout completed past)
    (ended : completed.returncode = 0) : ∃ moment ∈ past, Succeeded command moment := by
  rcases finished with ⟨before, after, older, rfl⟩
  exact ⟨_, List.mem_cons_self, before, timeout, completed, after, rfl, ended⟩

/-- A quiet command: status 0 is a success that is in the past. -/
theorem run_since {command : Command} {timeout : Nat} (calm : Calm good)
    (quiet : Quiet command) (since : Since before clock past world) :
    Attempt.Guarded system good
      (fun past world result => Since before clock past world ∧
        (result.returncode = 0 → ∃ moment ∈ past, Succeeded command moment))
      (fun past world _ => Since before clock past world) (run command timeout) past
      world := by
  apply Attempt.result_mono
    (run_guarded (quiet_keeps calm) quiet (fun _ _ _ holds => holds) since)
  rintro past world result ⟨since, finished⟩
  exact ⟨since, fun ended => (finished ended).succeeded ended⟩

/-! ## The parts of a pass -/

theorem readProbes_since (calm : Calm good) {paths : List String}
    (since : Since before clock past world) :
    Attempt.Guarded system good
      (fun past world result => Since before clock past world ∧
        (result.1 = .healthy → ∀ path ∈ paths,
          ∃ moment ∈ past, Succeeded (readProbeCommand cfg path) moment))
      (fun past world _ => Since before clock past world) (readProbes cfg paths) past
      world := by
  induction paths generalizing before clock past world with
  | nil => exact ⟨since, by simp⟩
  | cons path rest induction =>
      have read : Attempt.Guarded system good
          (fun past world result => Since before clock past world ∧
            (result.1 = true → ∃ moment ∈ past,
              Succeeded (readProbeCommand cfg path) moment))
          (fun past world _ => Since before clock past world) (readProbe cfg path) past
          world := by
        apply Attempt.bind (run_since calm (quiet_readProbe cfg path) since)
        rintro past world result ⟨since, succeeded⟩
        exact ⟨since, fun ok => succeeded (by simpa using ok)⟩
      apply Attempt.bind read
      rintro past₁ world₁ ⟨ok, reason⟩ ⟨since₁, found⟩
      dsimp only
      split
      · next readOk =>
          apply Attempt.mono (induction Since.now)
          · rintro past₂ world₂ result ⟨later, all⟩
            refine ⟨since₁.trans later later.later, fun healthy => ?_⟩
            rcases found readOk with ⟨moment, member, succeeded⟩
            exact List.forall_mem_cons.mpr
              ⟨⟨moment, later.subset member, succeeded⟩, all healthy⟩
          · exact fun past₂ world₂ error later => since₁.trans later later.later
      · split
        · exact ⟨since₁, nofun⟩
        · exact ⟨since₁, nofun⟩

theorem health_since (calm : Calm good) {name : Export} {status : Completed}
    (since : Since before clock past world) :
    Attempt.Guarded system good
      (fun past world result => Since before clock past world ∧
        (result.1 = .healthy → Readable cfg name past))
      (fun past world _ => Since before clock past world)
      (health cfg name.target name.probes status) past world := by
  unfold health
  split
  · exact ⟨since, nofun⟩
  · split
    · apply Attempt.result_mono (readProbes_since calm since)
      rintro past world result ⟨since, all⟩
      refine ⟨since, fun healthy => ?_⟩
      have member : name.target ++ "/" ++ ".homelab-nfs-probe" ∈ name.probes := by
        simp [Export.probes]
      rcases all healthy _ member with ⟨moment, found, succeeded⟩
      exact ⟨moment, found, _, member, succeeded⟩
    · next sick => exact ⟨since, fun healthy => absurd healthy sick⟩

theorem inspectExport_since (calm : Calm good)
    {sources : Option (List (Line × Line))} {status : Completed} {name : Export}
    (since : Since before clock past world) :
    Attempt.Guarded system good
      (fun past world item => Since before clock past world ∧
        (item.state = .healthy → Readable cfg name past))
      (fun past world _ => Since before clock past world)
      (inspectExport cfg sources status name) past world := by
  simp only [inspectExport]
  split
  · exact ⟨since, fun impossible => by cases impossible⟩
  · split
    · exact ⟨since, fun impossible => by cases impossible⟩
    · apply Attempt.bind (health_since calm since)
      exact fun past world result holds => holds

theorem Readable.mono {name : Export} {earlier : List (Moment interface World)}
    (readable : Readable cfg name earlier) (subset : earlier ⊆ past) :
    Readable cfg name past := by
  rcases readable with ⟨moment, member, path, probe, succeeded⟩
  exact ⟨moment, subset member, path, probe, succeeded⟩

theorem Reachable.mono {earlier : List (Moment interface World)}
    (reachable : Reachable earlier) (subset : earlier ⊆ past) : Reachable past := by
  rcases reachable with ⟨moment, member, ip, source, succeeded⟩
  exact ⟨moment, subset member, ip, source, succeeded⟩

/-- An export that is found healthy has been read. -/
theorem inspect_since (calm : Calm good) (since : Since before clock past world) :
    Attempt.Guarded system good
      (fun past world exports => Since before clock past world ∧
        ∀ name, (exports.get name).state = .healthy → Readable cfg name past)
      (fun past world _ => Since before clock past world) (inspect cfg) past world := by
  have list : (mountedSources).Within (Uses Quiet) := mountedSources_within quiet_mountList
  apply Attempt.bind (list.guarded (quiet_keeps calm) since)
  intro past₁ world₁ sources since₁
  apply Attempt.bind (run_since calm quiet_nfsstat since₁)
  rintro past₂ world₂ status ⟨since₂, _⟩
  apply Attempt.bind (inspectExport_since calm since₂)
  rintro past₃ world₃ srv ⟨since₃, srvRead⟩
  have second : Attempt.Guarded system good
      (fun past world item => (Since before clock past world ∧
        (srv.state = .healthy → Readable cfg .srv past)) ∧
        (item.state = .healthy → Readable cfg .generated past))
      (fun past world _ => Since before clock past world)
      (inspectExport cfg sources status .generated) past₃ world₃ := by
    apply Attempt.mono (inspectExport_since calm Since.now)
    · rintro past world item ⟨later, generatedRead⟩
      exact ⟨⟨since₃.trans later later.later,
        fun healthy => (srvRead healthy).mono later.subset⟩, generatedRead⟩
    · exact fun past world error later => since₃.trans later later.later
  apply Attempt.bind second
  rintro past₄ world₄ generated ⟨⟨since₄, srvRead⟩, generatedRead⟩
  refine ⟨since₄, fun name => ?_⟩
  cases name with
  | srv => exact srvRead
  | generated => exact generatedRead

theorem pickFrom_since (calm : Calm good) {ips : List String}
    (known : ∀ ip ∈ ips, ip ∈ sources) (since : Since before clock past world) :
    Attempt.Guarded system good
      (fun past world ip => Since before clock past world ∧ (ip ≠ "" → Reachable past))
      (fun past world _ => Since before clock past world) (pickFrom ips) past world := by
  induction ips generalizing past world with
  | nil => exact ⟨since, fun impossible => absurd rfl impossible⟩
  | cons ip rest induction =>
      apply Attempt.bind (run_since calm (quiet_netcat ip) since)
      rintro past₁ world₁ result ⟨since₁, succeeded⟩
      split
      · next ended =>
          rcases succeeded ended with ⟨moment, member, answered⟩
          exact ⟨since₁, fun _ => ⟨moment, member, ip, known ip (by simp), answered⟩⟩
      · exact induction (fun ip member => known ip (by simp [member])) since₁

/-- A source is only named if it answered. -/
theorem sourceFor_since (calm : Calm good) {exports : PerExport Item}
    (since : Since before clock past world) :
    Attempt.Guarded system good
      (fun past world ip => Since before clock past world ∧ (ip ≠ "" → Reachable past))
      (fun past world _ => Since before clock past world) (sourceFor exports) past
      world := by
  unfold sourceFor
  split
  · exact ⟨since, fun impossible => absurd rfl impossible⟩
  · exact pickFrom_since calm (fun _ member => member) since

theorem settle_since (calm : Calm good) {source : String} {name : Export} {item : Item}
    {mounted : Bool} (since : Since before clock past world) :
    Attempt.Guarded system good
      (fun past world item => Since before clock past world ∧
        (mounted = true → item.state = .healthy → Readable cfg name past))
      (fun past world _ => Since before clock past world)
      (settle cfg source name item mounted) past world := by
  unfold settle
  split
  · apply Attempt.bind (run_since calm quiet_nfsstat since)
    rintro past₁ world₁ status ⟨since₁, _⟩
    apply Attempt.bind (health_since calm since₁)
    exact fun past world result holds => ⟨holds.1, fun _ => holds.2⟩
  · next unmounted => exact ⟨since, fun mounted => absurd mounted unmounted⟩

/-! ## Recovery -/

def Allowed (good : Past interface World → Moment interface World → Prop)
    (before : Past interface World) (clock : ℚ) (command : Command) : Prop :=
  ∀ past world timeout answer after, Since before clock past world →
    good past ⟨world, .launch command timeout, answer, after⟩

theorem allowed_keeps {command : Command} (calm : Calm good)
    (allowed : Allowed good before clock command) :
    Keeps system (Uses (· = command)) good (Since before clock) := by
  apply since_keeps calm
  rintro past world _ timeout answer after rfl _ since
  exact allowed past world timeout answer after since

theorem run_allowed {command : Command} {timeout : Nat} (calm : Calm good)
    (allowed : Allowed good before clock command) (since : Since before clock past world) :
    Attempt.Guarded system good
      (fun past world result => Since before clock past world ∧
        (result.returncode = 0 → ∃ moment ∈ past, Succeeded command moment))
      (fun past world _ => Since before clock past world) (run command timeout) past
      world := by
  apply Attempt.result_mono
    (run_guarded (allowed_keeps calm allowed) rfl (fun _ _ _ holds => holds) since)
  rintro past world result ⟨since, finished⟩
  exact ⟨since, fun ended => (finished ended).succeeded ended⟩

def Unmounted (name : Export) (past : Past interface World) : Prop :=
  ∃ moment ∈ past, Succeeded (umount name.target) moment ∨
    Succeeded (diskutil name.target) moment

theorem unmount_since {name : Export} (calm : Calm good)
    (first : Allowed good before clock (umount name.target))
    (second : Allowed good before clock (diskutil name.target))
    (since : Since before clock past world) :
    Attempt.Guarded system good
      (fun past world off => Since before clock past world ∧
        (off = true → Unmounted name past))
      (fun past world _ => Since before clock past world) (unmount name.target) past
      world := by
  apply Attempt.bind (run_allowed calm first since)
  rintro past₁ world₁ result ⟨since₁, succeeded⟩
  split
  · next ended =>
      rcases succeeded ended with ⟨moment, member, off⟩
      exact ⟨since₁, fun _ => ⟨moment, member, .inl off⟩⟩
  · apply Attempt.bind (run_allowed calm second since₁)
    rintro past₂ world₂ result ⟨since₂, succeeded⟩
    refine ⟨since₂, fun off => ?_⟩
    rcases succeeded (by simpa using off) with ⟨moment, member, off⟩
    exact ⟨moment, member, .inr off⟩

theorem remount_since {source target : String} (calm : Calm good)
    (allowed : Allowed good before clock (mountNfs source target))
    (since : Since before clock past world) :
    Attempt.Guarded system good (fun past world _ => Since before clock past world)
      (fun past world _ => Since before clock past world) (remount source target) past
      world := by
  have list : (mountedSources).Within (Uses Quiet) := mountedSources_within quiet_mountList
  apply Attempt.bind (list.guarded (quiet_keeps calm) since)
  intro past₁ world₁ mounted since₁
  cases mounted with
  | none => exact since₁
  | some mounted =>
      dsimp only
      split
      · exact since₁
      · apply Attempt.bind (run_since calm (quiet_mkdir target) since₁)
        rintro past₂ world₂ made ⟨since₂, _⟩
        split
        · exact since₂
        · apply Attempt.bind (run_allowed calm allowed since₂)
          exact fun past world result holds => holds.1

theorem Unmounted.mono {name : Export} {earlier : Past interface World}
    (unmounted : Unmounted name earlier) (subset : earlier ⊆ past) :
    Unmounted name past := by
  rcases unmounted with ⟨moment, member, off⟩
  exact ⟨moment, subset member, off⟩

/-- What a recovery does is good: it unmounts only to recover, and mounts only
after that. -/
structure Entitled (good : Past interface World → Moment interface World → Prop)
    (before : Past interface World) (clock : ℚ) (source : String) (name : Export)
    (action : Action) : Prop where
  umount : action = .recover → Allowed good before clock (umount name.target)
  diskutil : action = .recover → Allowed good before clock (diskutil name.target)
  mount : ∀ past world timeout answer after, Since before clock past world →
    (action = .recover → Unmounted name past) →
    good past ⟨world, .launch (mountNfs source name.target) timeout, answer, after⟩

theorem recover_since {source : String} {name : Export} {action : Action}
    (calm : Calm good) (entitled : Entitled good before clock source name action)
    (since : Since before clock past world) :
    Attempt.Guarded system good (fun past world _ => Since before clock past world)
      (fun past world _ => Since before clock past world)
      (recover source name.target action) past world := by
  unfold recover
  split
  · next recovers =>
      apply Attempt.bind
        (unmount_since calm (entitled.umount recovers) (entitled.diskutil recovers) since)
      rintro past₁ world₁ off ⟨since₁, unmounted⟩
      cases off with
      | false => exact since₁
      | true =>
          have allowed : Allowed good past₁ world₁.clock
              (mountNfs source name.target) := by
            intro past world timeout answer after later
            exact entitled.mount _ _ _ _ _ (since₁.trans later later.later)
              fun _ => (unmounted rfl).mono later.subset
          apply Attempt.mono (remount_since calm allowed Since.now)
          · exact fun past world result later => since₁.trans later later.later
          · exact fun past world error later => since₁.trans later later.later
  · next mounts =>
      have allowed : Allowed good before clock (mountNfs source name.target) := by
        intro past world timeout answer after later
        exact entitled.mount _ _ _ _ _ later fun recovers => absurd recovers mounts
      exact remount_since calm allowed since

theorem recoverWithWorker_since {source : String} {name : Export} {action : Action}
    (calm : Calm good) (entitled : Entitled good before clock source name action)
    (since : Since before clock past world) :
    Attempt.Guarded system good (fun past world _ => Since before clock past world)
      (fun past world _ => Since before clock past world)
      (recoverWithWorker source name.target action) past world := by
  have stop : (stopFor name.target action).Within (Uses Quiet) :=
    stopFor_within quiet_launchctlPrint quiet_bootout name.target action
  apply Attempt.bind (stop.guarded (quiet_keeps calm) since)
  intro past₁ world₁ stopped since₁
  cases stopped with
  | none => exact since₁
  | some domain =>
      have recovered := recover_since calm entitled since₁
      apply Attempt.bind (Attempt.outcome_iff.mpr (Guarded.post_mono recovered _))
      · intro past₂ world₂ outcome since₂
        have resume : (resumeWorker domain).Within (Uses Quiet) :=
          resumeWorker_within quiet_bootstrap domain
        apply Attempt.bind (resume.guarded (quiet_keeps calm) since₂)
        intro past₃ world₃ resumed since₃
        apply Attempt.bind_iff.mpr
        apply Attempt.ofExcept_iff.mpr
        cases outcome <;> exact since₃
      · intro past₂ world₂ outcome holds
        cases outcome <;> exact holds

theorem stampRead_since (calm : Calm good) {readOk : Bool} {record : Record}
    {failed : Past interface World → World → Exception → Prop}
    (since : Since before clock past world) :
    Attempt.Guarded system good
      (fun past world result => Since before clock past world ∧
        ∃ stamp, result = { record with lastReadOk := stamp } ∧
          (stamp = record.lastReadOk ∨ readOk = true))
      failed (stampRead readOk record) past world := by
  unfold stampRead
  split
  · next ok =>
      apply ask_bind.mpr
      intro now after step
      refine ⟨calm _ _ not_acts_time, since.step (fun _ => id) step, ?_⟩
      exact ⟨now, rfl, .inr ok⟩
  · exact ⟨since, record.lastReadOk, rfl, .inl rfl⟩

end

/-! ## One pass -/

/-- When `decide` acts, and on what. -/
theorem decide_spec {state : Health} {failures : Nat} {elapsed : ℚ}
    {reachable everReadOk : Bool} {action : Action}
    (decided : decide state failures elapsed reachable everReadOk = action)
    (acts : action ≠ .none) :
    reachable = true ∧ 300 ≤ elapsed ∧ (action = .mount → state = .unmounted) ∧
      (action = .recover → state = .hung ∧ 2 ≤ failures ∧ everReadOk = true) := by
  subst decided
  unfold decide at acts ⊢
  split
  · next idle => exact absurd (if_pos idle) acts
  · next ready =>
      rw [not_or, Bool.not_eq_false, not_lt] at ready
      rw [if_neg (by simp [ready])] at acts
      refine ⟨ready.1, ready.2, ?_⟩
      split_ifs at acts ⊢ <;> simp_all

/-- A source answered in this pass, and the last attempt is old enough. -/
structure Granted (history : PerExport Record) (name : Export)
    (past : Past interface World) (clock : ℚ) : Prop where
  reachable : Reachable past
  rested : (history.get name).attemptAt + 300 ≤ clock

/-- The export hangs, hung before, and could be read once. -/
structure Counted (history : PerExport Record) (exports : PerExport Item)
    (name : Export) : Prop where
  hung : (exports.get name).state = .hung
  failed : 1 ≤ (history.get name).failures
  read : (history.get name).lastReadOk ≠ 0

/-- What a pass does after its inspection, by what it knows of each export. -/
structure Grounded (history : PerExport Record) (exports : PerExport Item)
    (past : Past interface World) (moment : Moment interface World) : Prop where
  announces : ∀ name, Announces name moment.operation →
    Granted history name past moment.before.clock ∧
      ∀ earlier ∈ past, ¬Announces name earlier.operation
  unmounts : ∀ name, Unmounts name moment.operation →
    Granted history name past moment.before.clock ∧ Counted history exports name
  mounts : ∀ name, Mounts name moment.operation →
    Granted history name past moment.before.clock ∧
      ((exports.get name).state = .unmounted ∨
        Counted history exports name ∧ Unmounted name past)

section

variable {cfg : Config} {history : PerExport Record} {exports : PerExport Item}
  {before past : Past interface World} {world : World} {clock : ℚ} {name : Export}

theorem grounded_calm : Calm (Grounded history exports) := by
  intro past moment calm
  exact ⟨fun name announces => absurd (.inr (.inr announces)) (calm name),
    fun name unmounts => absurd (.inl unmounts) (calm name),
    fun name mounts => absurd (.inr (.inl mounts)) (calm name)⟩

theorem Granted.later (granted : Granted history name before clock)
    (since : Since before clock past world) : Granted history name past world.clock :=
  ⟨granted.reachable.mono since.subset, granted.rested.trans since.later⟩

theorem entitled_grounded {source : String} {action : Action}
    (granted : Granted history name before clock)
    (mounts : action = .mount → (exports.get name).state = .unmounted)
    (recovers : action = .recover → Counted history exports name)
    (acts : action ≠ .none) :
    Entitled (Grounded history exports) before clock source name action := by
  constructor
  · intro recover past world timeout answer after since
    refine ⟨fun _ => False.elim, ?_, ?_⟩
    · rintro other (same | same)
      · have here : name = other := target_injective (by simpa [umount] using same)
        exact here ▸ ⟨granted.later since, recovers recover⟩
      · simp [umount, diskutil] at same
    · rintro other ⟨source', same⟩
      simp [umount, mountNfs] at same
  · intro recover past world timeout answer after since
    refine ⟨fun _ => False.elim, ?_, ?_⟩
    · rintro other (same | same)
      · simp [umount, diskutil] at same
      · have here : name = other := target_injective (by simpa [diskutil] using same)
        exact here ▸ ⟨granted.later since, recovers recover⟩
    · rintro other ⟨source', same⟩
      simp [diskutil, mountNfs] at same
  · intro past world timeout answer after since unmounted
    refine ⟨fun _ => False.elim, ?_, ?_⟩
    · rintro other (same | same)
      · simp [mountNfs, umount] at same
      · simp [mountNfs, diskutil] at same
    · rintro other ⟨source', same⟩
      simp only [mountNfs, List.cons.injEq] at same
      have here : name = other := target_injective same.2.2.2.2.1
      subst here
      refine ⟨granted.later since, ?_⟩
      cases action with
      | none => exact absurd rfl acts
      | mount => exact .inl (mounts rfl)
      | recover => exact .inr ⟨recovers rfl, unmounted rfl⟩

structure Attended (cfg : Config) (name : Export) (item : Item) (record : Record)
    (before past : Past interface World) (last : Record) : Prop where
  grown : ∃ newer, past = newer ++ before ∧ ∀ moment ∈ newer, ∀ other,
    Announces other moment.operation →
      other = name ∧ moment.before.clock ≤ last.attemptAt
  rests : record.attemptAt ≤ last.attemptAt
  counts : last.failures = if item.state = .hung then record.failures + 1 else 0
  reads : last.lastReadOk ≠ 0 →
    record.lastReadOk ≠ 0 ∨ item.state = .healthy ∨ Readable cfg name past

structure Attempted (cfg : Config) (name : Export) (record : Record)
    (before past : Past interface World) (clock : ℚ) (last : Record) : Prop where
  grown : ∃ newer, past = newer ++ before ∧ ∀ moment ∈ newer, ∀ other,
    Announces other moment.operation →
      other = name ∧ moment.before.clock ≤ last.attemptAt
  rests : clock ≤ last.attemptAt
  counts : last.failures = record.failures
  reads : last.lastReadOk ≠ 0 → record.lastReadOk ≠ 0 ∨ Readable cfg name past

/-- An attempt, once it is decided on. -/
theorem attempt_grounded {ip : String} {action : Action} {item : Item} {record : Record}
    (granted : Granted history name before world.clock)
    (first : ∀ moment ∈ before, ¬Announces name moment.operation)
    (mounts : action = .mount → (exports.get name).state = .unmounted)
    (recovers : action = .recover → Counted history exports name)
    (acts : action ≠ .none) :
    Attempt.Guarded system (Grounded history exports)
      (fun past _ result => Attempted cfg name record before past world.clock result.2)
      (fun _ _ _ => True) (attempt cfg ip name action item record) before world := by
  apply ask_bind.mpr
  intro answer₁ world₁ step₁
  refine ⟨⟨?_, fun _ => False.elim, fun _ => False.elim⟩, ask_bind.mpr ?_⟩
  · rintro other rfl
    exact ⟨granted, first⟩
  intro now world₂ step₂
  refine ⟨grounded_calm _ _ not_acts_monotonic, ?_⟩
  have passed : world.clock ≤ world₂.clock := (clock_le step₁).trans (clock_le step₂)
  have read : world₂.clock = now := step₂.ticking.2
  let past₂ : Past interface World := ⟨world₁, .monotonic, now, world₂⟩ ::
    ⟨world, .announce action name item.reason, answer₁, world₁⟩ :: before
  have granted₂ : Granted history name past₂ world₂.clock :=
    ⟨granted.reachable.mono fun moment member => by simp [past₂, member],
      granted.rested.trans passed⟩
  have entitled : Entitled (Grounded history exports) past₂ world₂.clock
      (ip ++ ":" ++ name.remote) name action :=
    entitled_grounded granted₂ mounts recovers acts
  apply Attempt.bind
    (Attempt.any_error (recoverWithWorker_since grounded_calm entitled Since.now))
  intro past₃ world₃ mounted since₃
  apply Attempt.bind (Attempt.any_error (settle_since grounded_calm since₃))
  rintro past₄ world₄ item ⟨since₄, healthyRead⟩
  apply Attempt.bind (stampRead_since grounded_calm Since.now)
  rintro past₅ world₅ last ⟨later, stamp, rfl, stamped⟩
  have subset : past₄ ⊆ past₅ := later.subset
  rcases (since₄.trans later later.later).grown with ⟨newer, rfl, silent⟩
  refine ⟨⟨newer ++ past₂.take 2, by simp [past₂], ?_⟩, passed.trans read.le, rfl, ?_⟩
  · intro moment member other announced
    rcases List.mem_append.mp member with member | member
    · exact absurd announced (silent moment member other)
    · rcases List.mem_cons.mp member with rfl | member
      · exact announced.elim
      · rw [List.mem_singleton.mp member] at announced ⊢
        exact ⟨announced.symm, passed.trans read.le⟩
  · intro readOnce
    rcases stamped with same | recovered
    · exact .inl (same ▸ readOnce)
    · rw [Bool.and_eq_true, decide_eq_true_eq] at recovered
      exact .inr ((healthyRead recovered.1 recovered.2).mono subset)

theorem attend_grounded {source : String}
    (reachable : source ≠ "" → Reachable before)
    (first : ∀ moment ∈ before, ¬Announces name moment.operation) :
    Attempt.Guarded system (Grounded history exports)
      (fun past _ result => Attended cfg name (exports.get name) (history.get name) before
        past result.2)
      (fun _ _ _ => True)
      (attend cfg source name (exports.get name) (history.get name)) before world := by
  apply Attempt.bind (stampRead_since grounded_calm Since.now)
  rintro past₁ world₁ record ⟨since₁, stamp, same, stamped⟩
  have failures : record.failures = if (exports.get name).state = .hung then
      (history.get name).failures + 1 else 0 := by rw [same]
  have attemptAt : record.attemptAt = (history.get name).attemptAt := by rw [same]
  have known : record.lastReadOk ≠ 0 →
      (history.get name).lastReadOk ≠ 0 ∨ (exports.get name).state = .healthy := by
    rw [same]
    intro stampedOnce
    rcases stamped with before | healthy
    · exact .inl (before ▸ stampedOnce)
    · exact .inr (by simpa using healthy)
  apply ask_bind.mpr
  intro now world₂ step₂
  refine ⟨grounded_calm _ _ not_acts_monotonic, ?_⟩
  have read : world₂.clock = now := step₂.ticking.2
  have since₂ := since₁.step (fun _ => id) step₂
  generalize decided : decide _ _ _ _ _ = action
  by_cases acts : action = .none
  · subst acts
    rcases since₂.grown with ⟨newer, grown, silent⟩
    refine ⟨⟨newer, grown, ?_⟩, attemptAt.ge, failures, ?_⟩
    · exact fun moment member other announced =>
        absurd announced (silent moment member other)
    · exact fun stampedOnce => (known stampedOnce).imp id .inl
  · have ⟨answered, rested, mounts, recovers⟩ := decide_spec decided acts
    have granted : Granted history name
        (⟨world₁, .monotonic, now, world₂⟩ :: past₁) world₂.clock := by
      refine ⟨(reachable (by simpa using answered)).mono since₂.subset, ?_⟩
      rw [← attemptAt, read]
      exact le_sub_iff_add_le'.mp rested
    have counted (recover : action = .recover) : Counted history exports name := by
      have ⟨hung, twice, stampedOnce⟩ := recovers recover
      rw [failures, if_pos hung] at twice
      refine ⟨hung, by omega, (known (by simpa using stampedOnce)).resolve_right ?_⟩
      rw [hung]
      exact nofun
    have attended : Attempt.Guarded system (Grounded history exports)
        (fun past _ result => Attended cfg name (exports.get name) (history.get name)
          before past result.2)
        (fun _ _ _ => True)
        (attempt cfg source name action (exports.get name) record)
        (⟨world₁, .monotonic, now, world₂⟩ :: past₁) world₂ := by
      rcases since₂.grown with ⟨newer, grown₂, silent⟩
      have stillFirst : ∀ moment ∈ ⟨world₁, .monotonic, now, world₂⟩ :: past₁,
          ¬Announces name moment.operation := by
        rw [grown₂]
        intro moment member
        rcases List.mem_append.mp member with member | member
        · exact silent moment member name
        · exact first moment member
      apply Attempt.result_mono (attempt_grounded granted stillFirst mounts counted acts)
      rintro past world ⟨item, last⟩ ⟨⟨newest, grown, announced⟩, rests, counts, reads⟩
      refine ⟨⟨newest ++ newer, by rw [grown, grown₂, List.append_assoc], ?_⟩, ?_,
        counts.trans failures, ?_⟩
      · intro moment member other announces
        rcases List.mem_append.mp member with member | member
        · exact announced moment member other announces
        · exact absurd announces (silent moment member other)
      · have later := granted.rested.trans rests
        exact (le_add_of_nonneg_right (by decide)).trans later
      · intro stampedOnce
        rcases reads stampedOnce with earlier | readable
        · exact (known earlier).imp id .inl
        · exact .inr (.inr readable)
    cases action with
    | none => exact absurd rfl acts
    | mount => exact attended
    | recover => exact attended

/-- Every announcement for the export since `before` was made by then. -/
def AnnouncedBy (name : Export) (bound : ℚ) (before past : Past interface World) : Prop :=
  ∃ newer, past = newer ++ before ∧ ∀ moment ∈ newer,
    Announces name moment.operation → moment.before.clock ≤ bound

theorem AnnouncedBy.trans {middle : Past interface World} {bound : ℚ}
    (first : AnnouncedBy name bound before middle)
    (second : AnnouncedBy name bound middle past) : AnnouncedBy name bound before past := by
  rcases first with ⟨newer, rfl, early⟩
  rcases second with ⟨newest, rfl, late⟩
  refine ⟨newest ++ newer, by simp, ?_⟩
  intro moment member
  rcases List.mem_append.mp member with member | member
  · exact late moment member
  · exact early moment member

theorem Since.announcedBy (since : Since before clock past world) (bound : ℚ) :
    AnnouncedBy name bound before past := by
  rcases since.grown with ⟨newer, grown, silent⟩
  exact ⟨newer, grown, fun moment member announces =>
    absurd announces (silent moment member name)⟩

theorem Attended.announcedBy {item : Item} {record last : Record} {other : Export}
    {bound : ℚ} (attended : Attended cfg other item record before past last)
    (own : other = name → last.attemptAt = bound) : AnnouncedBy name bound before past := by
  rcases attended.grown with ⟨newer, grown, announced⟩
  refine ⟨newer, grown, fun moment member announces => ?_⟩
  have ⟨same, early⟩ := announced moment member name announces
  exact early.trans_eq (own same.symm)

structure Reacted (cfg : Config) (history : PerExport Record) (exports : PerExport Item)
    (before past : Past interface World) (last : PerExport Record) (name : Export) :
    Prop where
  announced : AnnouncedBy name (last.get name).attemptAt before past
  rests : (history.get name).attemptAt ≤ (last.get name).attemptAt
  counts : (last.get name).failures =
    if (exports.get name).state = .hung then (history.get name).failures + 1 else 0
  reads : (last.get name).lastReadOk ≠ 0 → (history.get name).lastReadOk ≠ 0 ∨
    (exports.get name).state = .healthy ∨ Readable cfg name past

theorem react_grounded
    (first : ∀ moment ∈ before, ∀ name, ¬Announces name moment.operation) :
    Attempt.Guarded system (Grounded history exports)
      (fun past _ last => ∀ name, Reacted cfg history exports before past last name)
      (fun _ _ _ => True) (react cfg history exports) before world := by
  apply Attempt.bind (Attempt.any_error (sourceFor_since grounded_calm Since.now))
  rintro past₁ world₁ source ⟨since₁, reachable₁⟩
  have first₁ : ∀ moment ∈ past₁, ∀ name, ¬Announces name moment.operation := by
    rcases since₁.grown with ⟨newer, rfl, silent⟩
    exact List.forall_mem_append.mpr ⟨silent, first⟩
  apply Attempt.bind (attend_grounded reachable₁ fun moment member =>
    first₁ moment member .srv)
  rintro past₂ world₂ ⟨srvItem, srv⟩ srvAttended
  have reachable₂ : source ≠ "" → Reachable past₂ := by
    intro named
    rcases srvAttended.grown with ⟨newer, grown, _⟩
    exact (reachable₁ named).mono (grown ▸ List.subset_append_right newer past₁)
  have first₂ : ∀ moment ∈ past₂, ¬Announces .generated moment.operation := by
    rcases srvAttended.grown with ⟨newer, rfl, announced⟩
    refine List.forall_mem_append.mpr ⟨fun moment member announces => ?_,
      fun moment member => first₁ moment member .generated⟩
    cases (announced moment member .generated announces).1
  apply Attempt.bind (attend_grounded reachable₂ first₂)
  rintro past₃ world₃ ⟨generatedItem, generated⟩ generatedAttended
  have published : (publish cfg ⟨report srvItem srv, report generatedItem generated⟩).Within
      (Uses Quiet) := publish_within (quiet_publish cfg) _
  apply Attempt.bind (Attempt.any_error
    (published.guarded (quiet_keeps grounded_calm) Since.now))
  intro past₄ world₄ _ since₄
  have announced (name : Export) :
      AnnouncedBy name (PerExport.get ⟨srv, generated⟩ name).attemptAt before past₄ := by
    apply (since₁.announcedBy _).trans
    apply (srvAttended.announcedBy fun same => by rw [← same]; rfl).trans
    apply (generatedAttended.announcedBy fun same => by rw [← same]; rfl).trans
    exact since₄.announcedBy _
  have subset : past₃ ⊆ past₄ := since₄.subset
  have earlier : past₂ ⊆ past₃ := by
    rcases generatedAttended.grown with ⟨newer, grown, _⟩
    exact grown ▸ List.subset_append_right newer past₂
  intro name
  cases name with
  | srv =>
      refine ⟨announced .srv, srvAttended.rests, srvAttended.counts, fun stamped => ?_⟩
      exact (srvAttended.reads stamped).imp id
        (Or.imp id fun readable => (readable.mono earlier).mono subset)
  | generated =>
      refine ⟨announced .generated, generatedAttended.rests, generatedAttended.counts,
        fun stamped => ?_⟩
      exact (generatedAttended.reads stamped).imp id
        (Or.imp id fun readable => readable.mono subset)

end

/-! ## Runs -/

def HungBefore (cfg : Config) (name : Export)
    (passes : List (Pass interface World (PerExport Record))) : Prop :=
  ∃ earlier last exports, passes = earlier ++ [last] ∧
    Inspected cfg last.before last.moments exports ∧ (exports.get name).state = .hung

structure Knows (cfg : Config) (passes : List (Pass interface World (PerExport Record)))
    (name : Export) (record : Record) : Prop where
  counts : 1 ≤ record.failures → HungBefore cfg name passes
  reads : record.lastReadOk ≠ 0 → Readable cfg name (Pass.momentsOf passes)
  rests : ∀ moment ∈ Pass.momentsOf passes, Announces name moment.operation →
    moment.before.clock ≤ record.attemptAt

section

variable {cfg : Config} {world : World} {name : Export}

theorem knows_initial : Knows cfg [] name (initialHistory.get name) := by
  have initial : initialHistory.get name = .initial := by cases name <;> rfl
  rw [initial]
  constructor
  · simp [Record.initial]
  · simp [Record.initial]
  · simp

theorem knows_next {passes : List (Pass interface World (PerExport Record))}
    {pass : Pass interface World (PerExport Record)}
    (knows : Knows cfg passes name (pass.start.get name))
    (valid : pass.Valid system (supervise cfg)) :
    Knows cfg (passes ++ [pass]) name (pass.finish.get name) := by
  rcases Attempt.executes_bind_inv valid with
    ⟨_, impossible, _⟩ | ⟨exports, first, middle, second, inspection, reaction, split⟩
  · cases impossible
  have calm : Calm fun (_ : Past interface World) (_ : Moment interface World) => True :=
    fun _ _ _ => trivial
  have looked : Since [] pass.before.clock (first.reverse ++ []) middle ∧
      ∀ name, (exports.get name).state = .healthy →
        Readable cfg name (first.reverse ++ []) :=
    (inspect_since calm Since.now).result inspection
  rw [List.append_nil] at looked
  have silent : ∀ moment ∈ first.reverse, ∀ name, ¬Announces name moment.operation := by
    rcases looked.1.grown with ⟨newer, grown, silent⟩
    rw [grown, List.append_nil]
    exact silent
  have reacted : Reacted cfg pass.start exports first.reverse
      (second.reverse ++ first.reverse) pass.finish name :=
    (react_grounded silent).result reaction name
  have inspected : Inspected cfg pass.before pass.moments exports :=
    ⟨first, middle, second, split, inspection⟩
  have moments : (second.reverse ++ first.reverse) = pass.moments.reverse := by
    rw [split, List.reverse_append]
  constructor
  · intro failed
    refine ⟨passes, pass, exports, rfl, inspected, ?_⟩
    rw [reacted.counts] at failed
    by_contra calm
    rw [if_neg calm] at failed
    exact absurd failed (by decide)
  · intro stamped
    rw [Pass.momentsOf_append, Pass.momentsOf_singleton]
    rcases reacted.reads stamped with before | healthy | readable
    · exact (knows.reads before).mono (List.subset_append_left _ _)
    · apply (looked.2 name healthy).mono
      intro moment member
      simp [split, List.mem_reverse.mp member]
    · apply readable.mono
      rw [moments]
      intro moment member
      simp [List.mem_reverse.mp member]
  · intro moment member announces
    rw [Pass.momentsOf_append, Pass.momentsOf_singleton, split] at member
    simp only [List.mem_append] at member
    rcases member with member | member | member
    · exact (knows.rests moment member announces).trans reacted.rests
    · exact absurd announces (silent moment (List.mem_reverse.mpr member) name)
    · rcases reacted.announced with ⟨newer, grown, announced⟩
      rw [← List.append_cancel_right grown] at announced
      exact announced moment (List.mem_reverse.mpr member) announces

theorem knows (name : Export) (run : SupervisorRun cfg world) :
    Knows cfg run.passes name (run.state.get name) := by
  refine Passes.invariant
    (fun passes history _ => ∀ name, Knows cfg passes name (history.get name))
    (fun name => knows_initial) ?_ run.completed name
  exact fun passes pass knows valid name => knows_next (knows name) valid

end

/-! ## The rule -/

section

variable {cfg : Config} {world : World}

/-- A source answered in this pass, and all attempts on the export that were
announced in earlier passes are 300 s old. -/
structure Due (run : SupervisorRun cfg world) (name : Export)
    (earlier : List (Moment interface World)) (clock : ℚ) : Prop where
  reachable : Reachable earlier
  rested : ∀ moment ∈ Pass.momentsOf run.passes, Announces name moment.operation →
    moment.before.clock + 300 ≤ clock

/-- This pass and the one before found the export hung, and it could be read in an
earlier one. -/
structure ProvedHung (run : SupervisorRun cfg world) (name : Export)
    (earlier : List (Moment interface World)) : Prop where
  now : ∃ exports, Inspected cfg run.world earlier exports ∧
    (exports.get name).state = .hung
  before : HungBefore cfg name run.passes
  readable : Readable cfg name (Pass.momentsOf run.passes)

/-- What the run has to show for an operation on an export, all of it about this
export. -/
structure Justified (run : SupervisorRun cfg world) (name : Export)
    (earlier : List (Moment interface World)) (moment : Moment interface World) :
    Prop where
  announces : Announces name moment.operation → Due run name earlier moment.before.clock ∧
    ∀ before ∈ earlier, ¬Announces name before.operation
  unmounts : Unmounts name moment.operation →
    Due run name earlier moment.before.clock ∧ ProvedHung run name earlier
  mounts : Mounts name moment.operation → Due run name earlier moment.before.clock ∧
    ((∃ exports, Inspected cfg run.world earlier exports ∧
        (exports.get name).state = .unmounted) ∨
      ProvedHung run name earlier ∧ Unmounted name earlier)

/-- Every operation of the pass that the run is in is justified. -/
def ActsOnEvidence (run : SupervisorRun cfg world) : Prop :=
  ∀ earlier moment later, run.moments = earlier ++ moment :: later →
    ∀ name, Justified run name earlier moment

theorem justified_of_not_acts {run : SupervisorRun cfg world} {name : Export}
    {earlier : List (Moment interface World)} {moment : Moment interface World}
    (idle : ¬Acts name moment.operation) : Justified run name earlier moment :=
  ⟨fun announces => absurd (.inr (.inr announces)) idle,
    fun unmounts => absurd (.inl unmounts) idle,
    fun mounts => absurd (.inr (.inl mounts)) idle⟩

theorem not_acts_of_quiet {operation : Operation} {name : Export}
    (uses : Uses Quiet operation) : ¬Acts name operation := by
  rintro (off | on | announced)
  · cases operation with
    | launch command timeout => exact off.elim (uses name).1 (uses name).2.1
    | _ => exact off.elim
  · cases operation with
    | launch command timeout =>
        rcases on with ⟨source, same⟩
        exact (uses name).2.2 source same
    | _ => exact on.elim
  · exact uses.silent name announced

theorem justified_of_grounded {run : SupervisorRun cfg world} {name : Export}
    {exports : PerExport Item} {inspection reaction : List (Moment interface World)}
    {moment : Moment interface World} {middle : World}
    (inspected : Executes system (inspect cfg).run run.world inspection middle
      (some (.ok exports)))
    (grounded : Grounded run.state exports (reaction.reverse ++ inspection.reverse)
      moment) : Justified run name (inspection ++ reaction) moment := by
  have known := knows name run
  have found : Inspected cfg run.world (inspection ++ reaction) exports :=
    ⟨inspection, middle, reaction, rfl, inspected⟩
  have subset : reaction.reverse ++ inspection.reverse ⊆ inspection ++ reaction := by
    intro moment member
    simpa [or_comm] using member
  have due (granted : Granted run.state name (reaction.reverse ++ inspection.reverse)
      moment.before.clock) : Due run name (inspection ++ reaction) moment.before.clock := by
    refine ⟨granted.reachable.mono subset, fun before member announces => ?_⟩
    exact (add_le_add_left (known.rests before member announces) 300).trans granted.rested
  have hung (counted : Counted run.state exports name) :
      ProvedHung run name (inspection ++ reaction) :=
    ⟨⟨exports, found, counted.hung⟩, known.counts counted.failed, known.reads counted.read⟩
  constructor
  · intro announces
    have ⟨granted, first⟩ := grounded.announces name announces
    refine ⟨due granted, fun before member => first before ?_⟩
    simpa [or_comm] using member
  · intro unmounts
    have ⟨granted, counted⟩ := grounded.unmounts name unmounts
    exact ⟨due granted, hung counted⟩
  · intro mounts
    rcases grounded.mounts name mounts with ⟨granted, absent | ⟨counted, off⟩⟩
    · exact ⟨due granted, .inl ⟨exports, found, absent⟩⟩
    · exact ⟨due granted, .inr ⟨hung counted, off.mono subset⟩⟩

/-- The supervisor announces, unmounts and mounts only what the evidence of this run
justifies. -/
theorem acts_on_evidence (run : SupervisorRun cfg world) : ActsOnEvidence run := by
  intro earlier moment later split name
  have quiet : (inspect cfg).Within (Uses Quiet) :=
    inspect_within quiet_mountList quiet_nfsstat (quiet_readProbe cfg)
  have looks {first : List (Moment interface World)} {middle : World}
      {outcome : Option (Except Exception (PerExport Item))}
      (inspection : Executes system (inspect cfg).run run.world first middle outcome)
      (member : moment ∈ first) : Justified run name earlier moment :=
    justified_of_not_acts (not_acts_of_quiet (inspection.operations quiet moment member))
  have current := run.current
  rw [supervise, ExceptT.run_bind] at current
  rcases current.bind_inv with ⟨_, inspection⟩ |
    ⟨first, middle, result, second, inspection, reaction, moments⟩
  · exact looks inspection (by simp [split])
  · cases result with
    | error error =>
        apply looks inspection
        have ⟨nothing, _⟩ := reaction.done_inv
        have only : run.moments = first := by rw [moments, nothing, List.append_nil]
        simp [← only, split]
    | ok exports =>
        rcases split_parts (moments.symm.trans split) with
          ⟨rest, earlierIs, secondIs⟩ | member
        · subst earlierIs
          have silent : ∀ moment ∈ first.reverse, ∀ name,
              ¬Announces name moment.operation := by
            intro moment member name announces
            exact not_acts_of_quiet (inspection.operations quiet moment
              (List.mem_reverse.mp member)) (.inr (.inr announces))
          exact justified_of_grounded inspection
            ((react_grounded silent).moment_good reaction secondIs)
        · exact looks inspection member

end

end Homelab.NfsMount
