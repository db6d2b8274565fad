import Homelab.Foundation.RateWindow
import Homelab.Watchdog.Watch

/-! # The restart budget over whole histories

Histories in which no scan is killed and files can be written. The four numbers
in a container's state file bound its restarts in every day and prove, at each
restart, that the container was unhealthy for long enough.
-/

namespace Homelab.Watchdog

open Effects ByteText RateWindow

/-- When restart commands for `name` succeeded in a run. -/
def successTimes (name : Name) (run : ScanRun) : List Int :=
  (commandResults name run.moments).filterMap fun success =>
    if success then some run.parameter.2 else none

def restartTimes (name : Name) (runs : List ScanRun) : List Int :=
  runs.flatMap (successTimes name)

/-- The latest scans: enough of them validated, all of those found `name`
unhealthy, and no restart of it succeeded among them. -/
structure Streak (name : Name) (count : Int) (streak : List ScanRun) : Prop where
  enough : count ≤ (streak.filter validated).length
  unhealthy : ∀ run ∈ streak, ObservedUnhealthy name run
  quiet : ∀ run ∈ streak, true ∉ commandResults name run.moments

/-- What the state file of a container knows of the runs so far. -/
structure Remembers (cfg : Config) (name : Name) (runs : List ScanRun)
    (s : State) : Prop where
  natural : s.Natural
  counts : ∀ now, 1 ≤ now → (∀ run ∈ runs, run.parameter.2 ≤ now) →
    s.lastRestart ≤ now ∧
      Counts 86400 cfg.maxRestarts (restartTimes name runs) s.restarts
        s.lastRestart now
  streak : ∃ earlier streak, runs = earlier ++ streak ∧
    Streak name s.consecutive streak

theorem remembers_start {cfg : Config} {name : Name} (budget : 1 ≤ cfg.maxRestarts) :
    Remembers cfg name [] .zero := by
  refine ⟨State.zero_natural, ?_, [], [], rfl, ⟨by simp [State.zero], by simp, by simp⟩⟩
  intro now started _
  refine ⟨?_, Counts.start (by omega)⟩
  simp only [State.zero]
  omega

theorem restartTimes_snoc (name : Name) (runs : List ScanRun) (run : ScanRun) :
    restartTimes name (runs ++ [run]) =
      restartTimes name runs ++ successTimes name run := by
  simp [restartTimes]

theorem Streak.snoc {name : Name} {count more : Int} {streak : List ScanRun}
    {run : ScanRun} (held : Streak name count streak)
    (enough : more ≤ count + (if validated run then 1 else 0))
    (unhealthy : ObservedUnhealthy name run)
    (quiet : true ∉ commandResults name run.moments) :
    Streak name more (streak ++ [run]) := by
  rcases held with ⟨enoughEarlier, unhealthyEarlier, quietEarlier⟩
  constructor
  · rw [List.filter_append, List.length_append]
    cases observed : validated run <;> simp [observed] at enough ⊢ <;> omega
  · intro scan member
    rcases List.mem_append.mp member with member | member
    · exact unhealthyEarlier scan member
    · rw [List.mem_singleton.mp member]
      exact unhealthy
  · intro scan member
    rcases List.mem_append.mp member with member | member
    · exact quietEarlier scan member
    · rw [List.mem_singleton.mp member]
      exact quiet

/-- `Decide` clears the counter exactly when a day has passed since the last
restart. -/
theorem decide_counts {cfg : Config} {s : State} {now : Int} {times : List Int}
    (unhealthy : Bool)
    (counts : Counts 86400 cfg.maxRestarts times s.restarts s.lastRestart now) :
    Counts 86400 cfg.maxRestarts times
      (s.decide unhealthy now cfg.threshold cfg.maxRestarts
        cfg.cooldown).state.restarts s.lastRestart now := by
  rw [State.decide_restarts]
  split
  · rename_i old
    exact counts.clear (by omega)
  · exact counts

/-- A scan that validated nothing is not remembered. -/
theorem Remembers.idle {cfg : Config} {name : Name} {runs : List ScanRun}
    {run : ScanRun} {s : State} (remembers : Remembers cfg name runs s)
    (unread : validated run = false)
    (results : commandResults name run.moments = []) :
    Remembers cfg name (runs ++ [run]) s := by
  rcases remembers with ⟨natural, counts, earlier, streak, equal, held⟩
  refine ⟨natural, ?_, earlier, streak ++ [run], by simp [equal], ?_⟩
  · intro now started latest
    have counted := counts now started fun run member => latest run (by simp [member])
    have none : successTimes name run = [] := by simp [successTimes, results]
    rw [restartTimes_snoc, none, List.append_nil]
    exact counted
  · apply held.snoc
    · simp [unread]
    · have empty : validatedLedgers run.moments = [] := by
        simpa [validated] using unread
      simp [ObservedUnhealthy, empty]
    · simp [results]

theorem Settles.natural {p : Plan} {now : Int} {results : List Bool} {last : State}
    (settles : Settles p now results last) (natural : p.state.Natural)
    (started : 1 ≤ now) : last.Natural := by
  rcases natural with ⟨consecutive, restarts, lastRestart, lastAlert⟩
  cases settles with
  | idle => exact ⟨consecutive, restarts, lastRestart, lastAlert⟩
  | commanded _ command =>
      cases command with
      | restarted =>
          constructor <;> simp only [State.restarted] <;> omega
      | failed stamp alerted =>
          refine ⟨consecutive, restarts, lastRestart, ?_⟩
          rcases alerted with rfl | rfl <;> simp only <;> omega

/-- The counter follows what the restart commands of the scan did. -/
theorem Settles.counts {p : Plan} {now : Int} {results : List Bool} {last : State}
    (budget : Int) (times : List Int) (settles : Settles p now results last)
    (counted : Counts 86400 budget times p.state.restarts p.state.lastRestart now)
    (past : p.state.lastRestart ≤ now)
    (room : p.action = .restart → p.state.restarts < budget) :
    last.lastRestart ≤ now ∧
      Counts 86400 budget
        (times ++ results.filterMap fun success => if success then some now else none)
        last.restarts last.lastRestart now := by
  cases settles with
  | idle => exact ⟨past, by simpa using counted⟩
  | commanded restart command =>
      cases command with
      | restarted =>
          have event := counted.event past (room restart)
          exact ⟨le_refl _, by simpa [State.restarted] using event⟩
      | failed => exact ⟨past, by simpa using counted⟩

/-- One step of the policy keeps what the state file knows true. -/
theorem Remembers.settled {cfg : Config} {name : Name} {runs : List ScanRun}
    {run : ScanRun} {s last : State} {unhealthy : Bool}
    (remembers : Remembers cfg name runs s)
    (started : 1 ≤ run.parameter.2)
    (ordered : ∀ earlier ∈ runs, earlier.parameter.2 ≤ run.parameter.2)
    (read : validated run = true)
    (observed : ∀ r ∈ validatedLedgers run.moments,
      (r.container name).unhealthy = unhealthy)
    (settles : Settles (s.decide unhealthy run.parameter.2 cfg.threshold
        cfg.maxRestarts cfg.cooldown)
      run.parameter.2 (commandResults name run.moments) last) :
    Remembers cfg name (runs ++ [run]) last := by
  rcases remembers with ⟨natural, counts, earlier, streak, equal, held⟩
  have ⟨past, counted⟩ := counts run.parameter.2 started ordered
  have planned := decide_counts unhealthy counted
  refine ⟨settles.natural (State.decide_natural natural _ (by omega) _ _ _) started,
    ?_, ?_⟩
  · intro now _ latest
    have present := latest run (by simp)
    have settledCounts := settles.counts cfg.maxRestarts (restartTimes name runs)
    rw [State.decide_lastRestart] at settledCounts
    have ⟨lastPast, lastCounts⟩ := settledCounts planned past
      fun restart => (State.decide_restart restart).2.2
    rw [restartTimes_snoc]
    exact ⟨lastPast.trans present, lastCounts.later present⟩
  · have fresh : ∃ earlier streak, runs ++ [run] = earlier ++ streak ∧
        Streak name 0 streak :=
      ⟨runs ++ [run], [], by simp, by simp, by simp, by simp⟩
    have extended (quiet : true ∉ commandResults name run.moments) :
        ∃ earlier streak, runs ++ [run] = earlier ++ streak ∧
          Streak name (if unhealthy then s.consecutive + 1 else 0) streak := by
      cases unhealthy with
      | false => simpa using fresh
      | true =>
          exact ⟨earlier, streak ++ [run], by simp [equal],
            held.snoc (by simp [read]) observed quiet⟩
    generalize results : commandResults name run.moments = given at settles extended
    cases settles with
    | idle => simpa using extended (by simp)
    | commanded restart command =>
        cases command with
        | restarted => exact fresh
        | failed => simpa using extended (by simp)

/-! ## Histories -/

variable {cfg : Config} {name : Name} {initial final : World} {runs : List ScanRun}

theorem remembers_scans (budget : 1 ≤ cfg.maxRestarts)
    (history : History
      (system.restrict fun moment => Written moment ∧ Lists name moment)
      (fun scan : Config × Int => (execute scan.1 scan.2).run) initial runs final)
    (completed : ∀ run ∈ runs, run.Completed)
    (policy : ∀ run ∈ runs, run.parameter.1 = cfg)
    (clocks : (runs.map fun run => run.parameter.2).Pairwise (· ≤ ·))
    (fresh : initial.legacy name = none) :
    ∃ s, Remembers cfg name runs s ∧ Stored s (final.legacy name) := by
  have kept := history.invariant
    (fun runs world => (∀ run ∈ runs, run.parameter.1 = cfg) →
      (runs.map fun run => run.parameter.2).Pairwise (· ≤ ·) →
      ∃ s, Remembers cfg name runs s ∧ Stored s (world.legacy name))
    ?_ ?_ completed
  · exact kept policy clocks
  · intro _ _
    refine ⟨.zero, remembers_start budget, ?_⟩
    rw [fresh]
    rfl
  · intro runs run earlier valid completed policy clocks
    have same : run.parameter.1 = cfg := policy run (by simp)
    rw [List.map_append, List.pairwise_append] at clocks
    have ordered : ∀ earlier ∈ runs, earlier.parameter.2 ≤ run.parameter.2 := by
      intro earlier member
      exact clocks.2.2 _ (List.mem_map_of_mem member) _ (by simp)
    have ⟨s, remembers, stored⟩ := earlier
      (fun run member => policy run (by simp [member])) clocks.1
    rcases run_settles valid completed stored remembers.natural with
      ⟨unread, results, stored'⟩ |
      ⟨unhealthy, last, started, read, observed, stored', settles⟩
    · exact ⟨s, remembers.idle unread results, stored'⟩
    · rw [same] at settles
      exact ⟨last, remembers.settled started ordered read observed settles,
        stored'⟩

private theorem exists_clock (runs : List ScanRun) :
    ∃ now, 1 ≤ now ∧ ∀ run ∈ runs, run.parameter.2 ≤ now := by
  induction runs with
  | nil => exact ⟨1, by omega, by simp⟩
  | cons run rest induction =>
      rcases induction with ⟨now, started, latest⟩
      refine ⟨max now run.parameter.2, by omega, ?_⟩
      intro scan member
      rcases List.mem_cons.mp member with rfl | member
      · omega
      · have := latest scan member
        omega

/-- The command results of a run in which the container settles are at most
one, so nothing was commanded before its restart command. -/
theorem Settles.first {p : Plan} {now : Int} {last : State} {name : Name}
    {early late : List (Moment interface World)} {moment : Moment interface World}
    {command : Bool} (commanded : commandResult name moment = some command)
    (settles : Settles p now (commandResults name (early ++ moment :: late)) last) :
    p.action = .restart ∧ commandResults name early = [] := by
  have results : commandResults name (early ++ moment :: late) =
      commandResults name early ++ command :: commandResults name late := by
    simp [commandResults, commanded]
  rw [results] at settles
  generalize all : commandResults name early ++ command :: commandResults name late =
    given at settles
  cases settles with
  | idle => simp at all
  | commanded restart command =>
      refine ⟨restart, ?_⟩
      cases earlyResults : commandResults name early with
      | nil => rfl
      | cons head tail =>
          have long := congrArg List.length all
          rw [earlyResults] at long
          cases command <;> simp at long

/-- The restart budget: in no window of a day do more restarts of a container
succeed than the policy allows, and each restart command ends a streak of at
least `Threshold` validated scans that found it unhealthy, all after its last
successful restart. -/
theorem restart_budget (history : Scans initial runs final)
    (completed : ∀ run ∈ runs, run.Completed)
    (written : ∀ moment ∈ Run.momentsOf runs, Written moment)
    (listed : ∀ moment ∈ Run.momentsOf runs, Lists name moment)
    (policy : ∀ run ∈ runs, run.parameter.1 = cfg) (budget : 1 ≤ cfg.maxRestarts)
    (clocks : (runs.map fun run => run.parameter.2).Pairwise (· ≤ ·))
    (fresh : initial.legacy name = none) :
    Bounded 86400 cfg.maxRestarts (restartTimes name runs) ∧
      ∀ before run after, runs = before ++ run :: after →
        ∀ early moment late, run.moments = early ++ moment :: late →
        moment.operation = .restart name →
        ∃ earlier streak, before = earlier ++ streak ∧ validated run = true ∧
          cfg.threshold ≤ (streak.filter validated).length + 1 ∧
          (∀ scan ∈ streak ++ [run], ObservedUnhealthy name scan) ∧
          ∀ moment ∈ Run.momentsOf streak ++ early,
            commandResult name moment ≠ some true := by
  have narrow := history.restrict fun moment member =>
    And.intro (written moment member) (listed moment member)
  constructor
  · have ⟨s, remembers, _⟩ :=
      remembers_scans budget narrow completed policy clocks fresh
    have ⟨now, started, latest⟩ := exists_clock runs
    exact (remembers.counts now started latest).2.bounded
  · intro before run after equal early moment late moments restart
    subst equal
    have ⟨earlier, valid⟩ := narrow.split
    rw [List.map_append, List.pairwise_append] at clocks
    rcases remembers_scans budget earlier
      (fun run member => completed run (by simp [member]))
      (fun run member => policy run (by simp [member])) clocks.1 fresh with
      ⟨s, remembers, stored⟩
    have issued : ∃ command, commandResult name moment = some command := by
      rcases moment with ⟨world, operation, answer, next⟩
      cases restart
      exact ⟨_, if_pos rfl⟩
    rcases issued with ⟨command, commanded⟩
    rcases run_settles valid (completed run (by simp)) stored remembers.natural with
      ⟨_, results, _⟩ | ⟨unhealthy, last, _, read, observed, _, settles⟩
    · rw [moments] at results
      simp [commandResults, commanded] at results
    · rw [moments] at settles
      rcases settles.first commanded with ⟨planned, unsent⟩
      rcases State.decide_restart planned with ⟨sick, patient, _⟩
      rcases remembers.streak with ⟨earlier, streak, equal, held⟩
      rw [policy run (by simp)] at patient
      have enough := held.enough
      refine ⟨earlier, streak, equal, read, by omega, ?_, ?_⟩
      · intro scan member
        rcases List.mem_append.mp member with member | member
        · exact held.unhealthy scan member
        · rw [List.mem_singleton.mp member]
          intro r published
          rw [observed r published, sick]
      · intro moment member succeeded
        rcases List.mem_append.mp member with member | member
        · rcases List.mem_flatMap.mp member with ⟨scan, scanMember, member⟩
          exact held.quiet scan scanMember
            (List.mem_filterMap.mpr ⟨moment, member, succeeded⟩)
        · have given : true ∈ commandResults name early :=
            List.mem_filterMap.mpr ⟨moment, member, succeeded⟩
          rw [unsent] at given
          cases given

/-- One restart a day, after two scans that found the container unhealthy. -/
def patientPolicy : Config := { samplePolicy with threshold := 2 }

def quietScan : ScanRun := steadyScan patientPolicy 1000 .fresh

def restartScan : ScanRun := steadyScan patientPolicy 1300 quietScan.after

def againScan : ScanRun := steadyScan patientPolicy 1600 restartScan.after

/-- The container is due again, and the budget of the day is spent. -/
def spentScan : ScanRun := steadyScan patientPolicy 1900 againScan.after

abbrev spentHistory : List ScanRun := [quietScan, restartScan, againScan, spentScan]

theorem spentHistory_computed :
    (spentHistory.all fun run => run.outcome.isSome) = true ∧
      (∀ moment ∈ Run.momentsOf spentHistory, Lists (ascii "web") moment) ∧
      restartTimes (ascii "web") spentHistory = [1300] ∧
      ∃ moment ∈ restartScan.moments, commandResult (ascii "web") moment = some true := by
  decide +kernel

theorem restart_budget_spent :
    (restartTimes (ascii "web") spentHistory = [1300] ∧
      Bounded 86400 1 (restartTimes (ascii "web") spentHistory)) ∧
    ∃ early moment late, restartScan.moments = early ++ moment :: late ∧
      moment.operation = .restart (ascii "web") ∧
      ∃ earlier streak, [quietScan] = earlier ++ streak ∧ validated restartScan = true ∧
        patientPolicy.threshold ≤ (streak.filter validated).length + 1 ∧
        (∀ scan ∈ streak ++ [restartScan], ObservedUnhealthy (ascii "web") scan) ∧
        ∀ moment ∈ Run.momentsOf streak ++ early,
          commandResult (ascii "web") moment ≠ some true := by
  have ⟨ended, listed, times, restarted⟩ := spentHistory_computed
  have scans : Scans .fresh spentHistory spentScan.after :=
    .next (.next (.next (.next .start quietScan rfl (steadyScan_valid _ _ _))
      restartScan rfl (steadyScan_valid _ _ _)) againScan rfl (steadyScan_valid _ _ _))
      spentScan rfl (steadyScan_valid _ _ _)
  have written : ∀ moment ∈ Run.momentsOf spentHistory, Written moment := by
    intro moment member
    rcases List.mem_flatMap.mp member with ⟨run, among, inside⟩
    simp only [List.mem_cons, List.not_mem_nil, or_false] at among
    rcases among with rfl | rfl | rfl | rfl <;>
      exact steadyScan_written _ _ _ moment inside
  have policy : ∀ run ∈ spentHistory, run.parameter.1 = patientPolicy := by
    simp [quietScan, restartScan, againScan, spentScan]
  have clocks : (spentHistory.map fun run => run.parameter.2).Pairwise (· ≤ ·) := by
    simp [quietScan, restartScan, againScan, spentScan]
  have law := restart_budget scans (fun run => List.all_eq_true.mp ended run) written listed
    policy (by decide) clocks rfl
  refine ⟨⟨times, law.1⟩, ?_⟩
  rcases restarted with ⟨moment, member, succeeded⟩
  rcases List.append_of_mem member with ⟨early, late, split⟩
  have command : moment.operation = .restart (ascii "web") := by
    rcases moment with ⟨before, operation, answer, after⟩
    cases operation with
    | restart name =>
        have same : name = ascii "web" := by
          by_contra other
          simp [commandResult, other] at succeeded
        rw [same]
    | _ => cases succeeded
  exact ⟨early, moment, late, split, command, law.2 [quietScan] restartScan
    [againScan, spentScan] rfl early moment late split command⟩

end Homelab.Watchdog
