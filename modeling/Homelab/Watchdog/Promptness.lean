import Homelab.Watchdog.Budget
import Mathlib.Data.List.DropRight

/-! # When a container is restarted

What the scans of a history saw and did decides of every later scan whether it
restarts the container. The state file is not needed to tell.
-/

namespace Homelab.Watchdog

open Effects ByteText RateWindow

/-- Nothing in this run ends a streak: where the inventories were validated they
found `name` unhealthy, and no restart of it succeeded. -/
def Sick (name : Name) (run : ScanRun) : Bool :=
  (validatedLedgers run.moments).all (fun r => (r.container name).unhealthy) &&
    decide (true ∉ commandResults name run.moments)

/-- The validated scans since `name` was last found healthy or restarted. -/
def sickScans (name : Name) (runs : List ScanRun) : List ScanRun :=
  (runs.rtakeWhile (Sick name)).filter validated

/-- A scan is to restart `name`: it finds it unhealthy, as enough scans before it
did, and the burst of restarts is within the budget. -/
def RestartDue (cfg : Config) (name : Name) (before : List ScanRun) (run : ScanRun) : Prop :=
  validated run = true ∧ ObservedUnhealthy name run ∧
    cfg.threshold ≤ (sickScans name before).length + 1 ∧
    (burst 86400 run.parameter.2 (restartTimes name before) : Int) < cfg.maxRestarts

instance (cfg : Config) (name : Name) (before : List ScanRun) (run : ScanRun) :
    Decidable (RestartDue cfg name before run) :=
  inferInstanceAs (Decidable (_ ∧ (∀ r ∈ validatedLedgers run.moments, _ = true) ∧ _ ∧ _))

structure Recalls (name : Name) (runs : List ScanRun) (s : State) : Prop where
  natural : s.Natural
  streak : s.consecutive = (sickScans name runs).length
  /-- Counted as `Decide` counts, whenever that is next. -/
  restarts : ∀ now, (∀ run ∈ runs, run.parameter.2 ≤ now) →
    (s.decay true now).restarts = burst 86400 now (restartTimes name runs)

theorem recalls_start {name : Name} : Recalls name [] .zero :=
  ⟨State.zero_natural, rfl, fun _ _ => rfl⟩

section

variable {cfg : Config} {name : Name} {runs : List ScanRun} {run : ScanRun} {s last : State}

/-- `Decide` plans a restart after enough polls and within the budget, and only
then. -/
theorem State.decide_restart_iff {unhealthy : Bool} {now threshold budget cooldown : Int} :
    (s.decide unhealthy now threshold budget cooldown).action = .restart ↔
      unhealthy = true ∧ threshold ≤ s.consecutive + 1 ∧
        (s.decide unhealthy now threshold budget cooldown).state.restarts < budget := by
  refine ⟨State.decide_restart, ?_⟩
  rintro ⟨rfl, enough, room⟩
  rw [State.decide_restarts, ← State.decay_restarts s true] at room
  have patient : ¬(s.decay true now).consecutive + 1 < threshold := by
    simpa using enough
  simp only [State.decide, if_true, if_neg patient, if_pos room]

theorem State.restarted_decay (s : State) (now later : Int) :
    ((s.restarted now).decay true later).restarts =
      if 0 < s.restarts + 1 ∧ 86400 ≤ later - now then 0 else s.restarts + 1 :=
  State.decay_restarts (s.restarted now) true later

theorem sickScans_snoc (sick : Sick name run = true) :
    ((sickScans name (runs ++ [run])).length : Int) =
      (sickScans name runs).length + (if validated run then 1 else 0) := by
  rw [sickScans, List.rtakeWhile_concat_pos _ _ _ sick, List.filter_append, List.length_append,
    sickScans]
  cases observed : validated run <;> simp [observed]

theorem sickScans_snoc_of_well (well : Sick name run = false) :
    sickScans name (runs ++ [run]) = [] := by
  rw [sickScans, List.rtakeWhile_concat_neg _ _ _ (by simp [well]), List.filter_nil]

/-- Where no restart succeeded there is no new time. -/
theorem restartTimes_quiet (quiet : true ∉ commandResults name run.moments) :
    restartTimes name (runs ++ [run]) = restartTimes name runs := by
  have none : successTimes name run = [] := by
    rw [successTimes, List.filterMap_eq_nil_iff]
    intro success member
    cases success with
    | false => rfl
    | true => exact absurd member quiet
  rw [restartTimes_snoc, none, List.append_nil]

/-- The validated ledgers of a run agree on the container. -/
theorem observed_iff {unhealthy : Bool} (read : validated run = true)
    (observed : ∀ r ∈ validatedLedgers run.moments, (r.container name).unhealthy = unhealthy) :
    ObservedUnhealthy name run ↔ unhealthy = true := by
  have seen : validatedLedgers run.moments ≠ [] := by simpa [validated] using read
  rcases List.exists_mem_of_ne_nil _ seen with ⟨r, member⟩
  refine ⟨fun every => (observed r member).symm.trans (every r member), ?_⟩
  intro flag other present
  exact (observed other present).trans flag

theorem sick_iff : Sick name run = true ↔
    ObservedUnhealthy name run ∧ true ∉ commandResults name run.moments := by
  rw [Sick, Bool.and_eq_true, List.all_eq_true, decide_eq_true_eq, ObservedUnhealthy]

/-- A scan that validated nothing changes nothing. -/
theorem Recalls.idle (recalls : Recalls name runs s) (unread : validated run = false)
    (results : commandResults name run.moments = []) : Recalls name (runs ++ [run]) s := by
  have empty : validatedLedgers run.moments = [] := by simpa [validated] using unread
  have sick : Sick name run = true := by simp [Sick, empty, results]
  rcases recalls with ⟨natural, streak, restarts⟩
  refine ⟨natural, ?_, fun now latest => ?_⟩
  · rw [sickScans_snoc sick, streak, unread]
    simp
  · rw [restartTimes_quiet (by simp [results])]
    exact restarts now fun earlier member => latest earlier (by simp [member])

/-- The restarts that `Decide` counts are the burst up to the clock of the scan. -/
theorem Recalls.decided (recalls : Recalls name runs s)
    (ordered : ∀ earlier ∈ runs, earlier.parameter.2 ≤ run.parameter.2) (unhealthy : Bool)
    (threshold budget cooldown : Int) :
    (s.decide unhealthy run.parameter.2 threshold budget cooldown).state.restarts =
      burst 86400 run.parameter.2 (restartTimes name runs) := by
  rw [State.decide_restarts, ← State.decay_restarts s true]
  exact recalls.restarts run.parameter.2 ordered

/-- What `Decide` leaves is counted as the burst at any later clock. -/
theorem Recalls.decided_later (recalls : Recalls name runs s)
    (ordered : ∀ earlier ∈ runs, earlier.parameter.2 ≤ run.parameter.2) (unhealthy : Bool)
    (threshold budget cooldown : Int) {now : Int} (later : run.parameter.2 ≤ now) :
    ((s.decide unhealthy run.parameter.2 threshold budget cooldown).state.decay true now).restarts =
      burst 86400 now (restartTimes name runs) := by
  have before := recalls.restarts run.parameter.2 ordered
  have current := recalls.restarts now fun earlier member => (ordered earlier member).trans later
  have passes : burst 86400 now (restartTimes name runs) = 0 ∨
      burst 86400 now (restartTimes name runs) =
        burst 86400 run.parameter.2 (restartTimes name runs) := burst_later later _
  have nonnegative := recalls.natural.restarts
  have decided := recalls.decided ordered unhealthy threshold budget cooldown
  rw [State.decay_restarts] at before current ⊢
  rw [State.decide_lastRestart, decided]
  split_ifs at * <;> omega

/-- The streak goes on with a sick scan that is validated, and ends with a well one. -/
theorem Recalls.streak_snoc (recalls : Recalls name runs s) (read : validated run = true) :
    ((sickScans name (runs ++ [run])).length : Int) =
      if Sick name run then s.consecutive + 1 else 0 := by
  by_cases sick : Sick name run = true
  · rw [if_pos sick, sickScans_snoc sick, recalls.streak, read, if_pos rfl]
  · rw [if_neg sick, sickScans_snoc_of_well (by simpa using sick)]
    rfl

/-- One step of the policy keeps what the state file stands for. -/
theorem Recalls.settled {unhealthy : Bool} (recalls : Recalls name runs s)
    (started : 1 ≤ run.parameter.2)
    (ordered : ∀ earlier ∈ runs, earlier.parameter.2 ≤ run.parameter.2)
    (read : validated run = true)
    (observed : ∀ r ∈ validatedLedgers run.moments, (r.container name).unhealthy = unhealthy)
    (settles : Settles (s.decide unhealthy run.parameter.2 cfg.threshold cfg.maxRestarts
        cfg.cooldown)
      run.parameter.2 (commandResults name run.moments) last) :
    Recalls name (runs ++ [run]) last := by
  have natural := settles.natural
    (State.decide_natural recalls.natural unhealthy (by omega) _ _ _) started
  have kept {now : Int} (later : run.parameter.2 ≤ now) := recalls.decided_later ordered unhealthy
    cfg.threshold cfg.maxRestarts cfg.cooldown later
  have streak := recalls.streak_snoc read
  simp only [sick_iff, observed_iff read observed] at streak
  generalize results : commandResults name run.moments = given at settles streak
  cases settles with
  | idle other =>
      refine ⟨natural, ?_, fun now latest => ?_⟩
      · rw [streak, State.decide_consecutive]
        simp
      · rw [restartTimes_quiet (by simp [results])]
        exact kept (latest run (by simp))
  | commanded restart command =>
      have unwell := (State.decide_restart restart).1
      subst unwell
      cases command with
      | restarted =>
          refine ⟨natural, ?_, fun now latest => ?_⟩
          · rw [streak]
            rfl
          · have one : successTimes name run = [run.parameter.2] := by
              simp [successTimes, results]
            have later := latest run (by simp)
            rw [restartTimes_snoc, one, burst_append_singleton, State.restarted_decay,
              recalls.decided ordered]
            split_ifs <;> omega
      | failed lastAlert alerted =>
          refine ⟨natural, ?_, fun now latest => ?_⟩
          · rw [streak]
            simp
          · have same := kept (latest run (by simp))
            rw [State.decay_restarts] at same ⊢
            rw [restartTimes_quiet (by simp [results])]
            exact same

end

/-! ## Histories -/

variable {cfg : Config} {name : Name} {initial final : World} {runs : List ScanRun}

theorem recalls_scans
    (history : History
      (system.restrict fun moment => Written moment ∧ Lists name moment)
      (fun scan : Config × Int => (execute scan.1 scan.2).run) initial runs final)
    (completed : ∀ run ∈ runs, run.Completed)
    (policy : ∀ run ∈ runs, run.parameter.1 = cfg)
    (clocks : (runs.map fun run => run.parameter.2).Pairwise (· ≤ ·))
    (fresh : initial.legacy name = none) :
    ∃ s, Recalls name runs s ∧ Stored s (final.legacy name) := by
  have kept := history.invariant
    (fun runs world => (∀ run ∈ runs, run.parameter.1 = cfg) →
      (runs.map fun run => run.parameter.2).Pairwise (· ≤ ·) →
      ∃ s, Recalls name runs s ∧ Stored s (world.legacy name))
    ?_ ?_ completed
  · exact kept policy clocks
  · intro _ _
    refine ⟨.zero, recalls_start, ?_⟩
    rw [fresh]
    rfl
  · intro runs run earlier valid completed policy clocks
    have same : run.parameter.1 = cfg := policy run (by simp)
    rw [List.map_append, List.pairwise_append] at clocks
    have ordered : ∀ earlier ∈ runs, earlier.parameter.2 ≤ run.parameter.2 := by
      intro earlier member
      exact clocks.2.2 _ (List.mem_map_of_mem member) _ (by simp)
    obtain ⟨s, recalls, stored⟩ := earlier
      (fun run member => policy run (by simp [member])) clocks.1
    rcases run_settles valid completed stored recalls.natural with
      ⟨unread, results, stored'⟩ |
      ⟨unhealthy, last, started, read, observed, stored', settles⟩
    · exact ⟨s, recalls.idle unread results, stored'⟩
    · rw [same] at settles
      exact ⟨last, recalls.settled started ordered read observed settles, stored'⟩

/-- A scan restarts a container once or not at all, and it does so exactly when
the container has been unhealthy for long enough and the restarts of it that
followed each other within a day have not used up the budget. -/
theorem restarts_exactly_when_due (history : Scans initial runs final)
    (completed : ∀ run ∈ runs, run.Completed)
    (written : ∀ moment ∈ Run.momentsOf runs, Written moment)
    (listed : ∀ moment ∈ Run.momentsOf runs, Lists name moment)
    (policy : ∀ run ∈ runs, run.parameter.1 = cfg)
    (clocks : (runs.map fun run => run.parameter.2).Pairwise (· ≤ ·))
    (fresh : initial.legacy name = none) :
    ∀ before run after, runs = before ++ run :: after →
      (commandResults name run.moments).length ≤ 1 ∧
        (commandResults name run.moments ≠ [] ↔ RestartDue cfg name before run) := by
  intro before run after equal
  have narrow := history.restrict fun moment member =>
    And.intro (written moment member) (listed moment member)
  subst equal
  rcases narrow.split with ⟨earlier, valid⟩
  rw [List.map_append, List.pairwise_append] at clocks
  obtain ⟨s, recalls, stored⟩ := recalls_scans earlier
    (fun run member => completed run (by simp [member]))
    (fun run member => policy run (by simp [member])) clocks.1 fresh
  have ordered : ∀ earlier ∈ before, earlier.parameter.2 ≤ run.parameter.2 := by
    intro earlier member
    exact clocks.2.2 _ (List.mem_map_of_mem member) _ (by simp)
  rcases run_settles valid (completed run (by simp)) stored recalls.natural with
    ⟨unread, results, _⟩ | ⟨unhealthy, last, _, read, observed, _, settles⟩
  · simp [RestartDue, unread, results]
  · rw [policy run (by simp)] at settles
    have due : (s.decide unhealthy run.parameter.2 cfg.threshold cfg.maxRestarts
        cfg.cooldown).action = .restart ↔ RestartDue cfg name before run := by
      rw [State.decide_restart_iff, recalls.decided ordered, recalls.streak,
        ← observed_iff read observed]
      simp only [RestartDue, read, true_and]
    rw [← due]
    generalize commandResults name run.moments = results at settles
    cases settles with
    | idle other => simp [other]
    | commanded restart command => cases command <;> simp [restart]

def secondScan : ScanRun := steadyScan samplePolicy 1060 firstScan.after

def thirdScan : ScanRun := steadyScan samplePolicy 87400 secondScan.after

/-- The budget is one restart. The container is restarted by the first scan, not by the
second, and by the third again. -/
theorem restarts_exactly_when_due_daily :
    commandResults (ascii "web") secondScan.moments = [] ∧
      commandResults (ascii "web") thirdScan.moments ≠ [] := by
  have scans : Scans .fresh [firstScan, secondScan, thirdScan] thirdScan.after :=
    .next (.next firstScan_scans secondScan rfl (steadyScan_valid _ _ _)) thirdScan rfl
      (steadyScan_valid _ _ _)
  have written : ∀ moment ∈ Run.momentsOf [firstScan, secondScan, thirdScan],
      Written moment := by
    intro moment member
    rcases List.mem_flatMap.mp member with ⟨run, among, inside⟩
    simp only [List.mem_cons, List.not_mem_nil, or_false] at among
    rcases among with rfl | rfl | rfl <;>
      exact steadyScan_written _ _ _ moment inside
  have completed : ∀ run ∈ [firstScan, secondScan, thirdScan], run.Completed := by
    intro run member
    have all : [firstScan, secondScan, thirdScan].all (fun run => run.outcome.isSome) = true := by
      decide +kernel
    exact List.all_eq_true.mp all run member
  have policy : ∀ run ∈ [firstScan, secondScan, thirdScan], run.parameter.1 = samplePolicy := by
    simp [firstScan, secondScan, thirdScan]
  have exactly : ∀ before run after, [firstScan, secondScan, thirdScan] = before ++ run :: after →
      (commandResults (ascii "web") run.moments).length ≤ 1 ∧
        (commandResults (ascii "web") run.moments ≠ [] ↔
          RestartDue samplePolicy (ascii "web") before run) :=
    restarts_exactly_when_due scans completed written (by decide +kernel) policy (by decide) rfl
  constructor
  · have second := (exactly [firstScan] secondScan [thirdScan] rfl).2
    exact not_not.mp (second.not.mpr (by decide +kernel))
  · have third := (exactly [firstScan, secondScan] thirdScan [] rfl).2
    exact third.mpr (by decide +kernel)

end Homelab.Watchdog
