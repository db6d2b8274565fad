import Homelab.MacPresence.Presence

/-! # What the five numbers say about all the probes

The state is a summary of the whole history: when the Mac was last seen, how many probes have
failed since, and where the streak began in which it is reachable.
-/

namespace Homelab.MacPresence

open Text GoText

structure Probe where
  present : Bool
  now : Int

/-- The fold of `Decide` over the probes, the oldest one first. -/
def fold (threshold : Int) (history : List Probe) : State :=
  history.foldl (fun s probe => s.decide probe.present probe.now threshold) .fresh

/-! ## Histories -/

def failures (history : List Probe) : Nat :=
  (history.reverse.takeWhile fun probe => !probe.present).length

def lastSuccess (history : List Probe) : Option Probe :=
  history.reverse.find? fun probe => probe.present

/-- At the end of the history the Mac is declared away. -/
def Away (threshold : Int) (history : List Probe) : Prop := max threshold 1 ≤ failures history

/-- The first success after the last moment at which the Mac was declared away, or ever. -/
structure Streak (threshold : Int) (history : List Probe) (before burst : List Probe)
    (first : Probe) (rest : List Probe) : Prop where
  split : history = before ++ (burst ++ first :: rest)
  start : before = [] ∨ Away threshold before
  failed : ∀ probe ∈ burst, probe.present = false
  success : first.present = true
  last : ∀ later, later <+: history → before.length < later.length → ¬Away threshold later

structure Summary (threshold : Int) (history : List Probe) (s : State) : Prop where
  reachable : s.reachable = true ↔
    (∃ probe ∈ history, probe.present = true) ∧ (failures history : Int) < max threshold 1
  lastSeen : s.lastSeen = ((lastSuccess history).map Probe.now).getD 0
  since : s.reachable = true →
    ∃ before burst first rest, Streak threshold history before burst first rest ∧
      s.reachableSince = first.now
  away : s.reachable = false → s.reachableSince = 0
  counted : s.consecutiveFailures = failures history
  lastProbe : s.lastProbe = (history.getLast?.map Probe.now).getD 0

section

variable {threshold : Int} {history : List Probe} {probe : Probe}

theorem failures_of_success (history : List Probe) (present : probe.present = true) :
    failures (history ++ [probe]) = 0 := by
  simp [failures, present]

theorem failures_of_failure (history : List Probe) (absent : probe.present = false) :
    failures (history ++ [probe]) = failures history + 1 := by
  simp [failures, absent]

theorem lastSuccess_of_success (history : List Probe) (present : probe.present = true) :
    lastSuccess (history ++ [probe]) = some probe := by
  simp [lastSuccess, present]

theorem lastSuccess_of_failure (history : List Probe) (absent : probe.present = false) :
    lastSuccess (history ++ [probe]) = lastSuccess history := by
  simp [lastSuccess, absent]

theorem failures_le_length (history : List Probe) : failures history ≤ history.length := by
  have short : failures history ≤ history.reverse.length :=
    (List.takeWhile_sublist fun probe : Probe => !probe.present).length_le
  rwa [List.length_reverse] at short

/-- Without a success every probe failed. -/
theorem failures_eq_length (none : ∀ probe ∈ history, probe.present = false) :
    failures history = history.length := by
  have all : history.reverse.takeWhile (fun probe => !probe.present) = history.reverse := by
    rw [List.takeWhile_eq_self_iff]
    intro probe member
    simp [none probe (List.mem_reverse.mp member)]
  rw [failures, all, List.length_reverse]

/-- A streak goes on as long as the Mac is not declared away. -/
theorem Streak.extend {before burst rest : List Probe} {first : Probe}
    (streak : Streak threshold history before burst first rest)
    (stays : ¬Away threshold (history ++ [probe])) :
    Streak threshold (history ++ [probe]) before burst first (rest ++ [probe]) where
  split := by
    rw [streak.split]
    simp
  start := streak.start
  failed := streak.failed
  success := streak.success
  last := by
    intro later isPrefix long
    rcases List.prefix_concat_iff.mp isPrefix with rfl | within
    · exact stays
    · exact streak.last later within long

/-- A success after the Mac was away starts a streak. -/
theorem streak_after_away (away : Away threshold history) (present : probe.present = true) :
    Streak threshold (history ++ [probe]) history [] probe [] where
  split := by simp
  start := .inr away
  failed := by simp
  success := present
  last := by
    intro later isPrefix long
    rcases List.prefix_concat_iff.mp isPrefix with rfl | within
    · rw [Away, failures_of_success _ present]
      omega
    · exact absurd within.length_le (by omega)

/-- So does the first success of all. -/
theorem streak_first (none : ∀ probe ∈ history, probe.present = false)
    (few : (failures history : Int) < max threshold 1) (present : probe.present = true) :
    Streak threshold (history ++ [probe]) [] history probe [] where
  split := by simp
  start := .inl rfl
  failed := none
  success := present
  last := by
    intro later isPrefix _
    rcases List.prefix_concat_iff.mp isPrefix with rfl | within
    · rw [Away, failures_of_success _ present]
      omega
    · have short := within.length_le
      have all := failures_eq_length none
      have most := failures_le_length later
      rw [Away]
      omega

end

/-! ## One probe, and all of them -/

theorem summary_fresh (threshold : Int) : Summary threshold [] .fresh where
  reachable := by simp [State.fresh]
  lastSeen := rfl
  since := by
    intro impossible
    cases impossible
  away _ := rfl
  counted := rfl
  lastProbe := rfl

section

variable {threshold : Int} {history : List Probe} {s : State} {probe : Probe}

theorem Summary.away_or_none (summary : Summary threshold history s)
    (unreachable : s.reachable = false) :
    Away threshold history ∨
      (∀ probe ∈ history, probe.present = false) ∧ (failures history : Int) < max threshold 1 := by
  by_cases away : Away threshold history
  · exact .inl away
  · right
    rw [Away, Int.not_le] at away
    refine ⟨fun probe member => ?_, away⟩
    cases present : probe.present with
    | false => rfl
    | true =>
        have reached := summary.reachable.mpr ⟨⟨probe, member, present⟩, away⟩
        rw [unreachable] at reached
        cases reached

theorem Summary.success (summary : Summary threshold history s) (present : probe.present = true) :
    Summary threshold (history ++ [probe]) (s.decide true probe.now threshold) := by
  have none := failures_of_success history present
  have reached : (∃ own ∈ history ++ [probe], own.present = true) ∧
      (failures (history ++ [probe]) : Int) < max threshold 1 := by
    refine ⟨⟨probe, by simp, present⟩, ?_⟩
    rw [none]
    omega
  have stays : ¬Away threshold (history ++ [probe]) := by
    rw [Away]
    omega
  have seen : ((lastSuccess (history ++ [probe])).map Probe.now).getD 0 = probe.now := by
    rw [lastSuccess_of_success _ present]
    rfl
  have last : (((history ++ [probe]).getLast?).map Probe.now).getD 0 = probe.now := by simp
  cases reachable : s.reachable with
  | true =>
      rcases summary.since reachable with ⟨before, burst, first, rest, streak, since⟩
      have decided : s.decide true probe.now threshold =
          { s with lastProbe := probe.now, consecutiveFailures := 0, lastSeen := probe.now } := by
        simp [State.decide, reachable]
      rw [decided]
      exact
        { reachable := iff_of_true reachable reached
          lastSeen := seen.symm
          since := fun _ => ⟨before, burst, first, rest ++ [probe], streak.extend stays, since⟩
          away := fun impossible => by
            rw [reachable] at impossible
            cases impossible
          counted := by rw [none]; rfl
          lastProbe := last.symm }
  | false =>
      have streak :
          ∃ before burst, Streak threshold (history ++ [probe]) before burst probe [] := by
        rcases summary.away_or_none reachable with away | ⟨absent, few⟩
        · exact ⟨history, [], streak_after_away away present⟩
        · exact ⟨[], history, streak_first absent few present⟩
      rcases streak with ⟨before, burst, streak⟩
      have decided : s.decide true probe.now threshold =
          ⟨probe.now, probe.now, 0, probe.now, true⟩ := by
        simp [State.decide, reachable]
      rw [decided]
      exact
        { reachable := iff_of_true rfl reached
          lastSeen := seen.symm
          since := fun _ => ⟨before, burst, probe, [], streak, rfl⟩
          away := fun impossible => by cases impossible
          counted := by rw [none]; rfl
          lastProbe := last.symm }

theorem Summary.failure (summary : Summary threshold history s) (absent : probe.present = false)
    (short : history.length < 2 ^ 62) :
    Summary threshold (history ++ [probe]) (s.decide false probe.now threshold) := by
  have one := failures_of_failure history absent
  have most := failures_le_length history
  have counted : wrap (s.consecutiveFailures + 1) = failures (history ++ [probe]) := by
    rw [summary.counted, wrap_of_inInt64 ⟨by omega, by omega⟩, one]
    rfl
  have successes : (∃ own ∈ history ++ [probe], own.present = true) ↔
      ∃ own ∈ history, own.present = true := by
    simp [absent]
  have seen := lastSuccess_of_failure history absent
  have last : (((history ++ [probe]).getLast?).map Probe.now).getD 0 = probe.now := by simp
  by_cases away : Away threshold (history ++ [probe])
  · have decided : s.decide false probe.now threshold =
        { s with
          lastProbe := probe.now, consecutiveFailures := failures (history ++ [probe]),
          reachable := false, reachableSince := 0 } := by
      simp only [State.decide, counted, Bool.false_eq_true, if_false]
      exact if_pos away
    rw [decided]
    exact
      { reachable := iff_of_false (by simp) fun reached => absurd reached.2 (by
          rw [Away] at away
          omega)
        lastSeen := by rw [seen]; exact summary.lastSeen
        since := fun impossible => by cases impossible
        away := fun _ => rfl
        counted := rfl
        lastProbe := last.symm }
  · have decided : s.decide false probe.now threshold =
        { s with
          lastProbe := probe.now, consecutiveFailures := failures (history ++ [probe]) } := by
      simp only [State.decide, counted, Bool.false_eq_true, if_false]
      exact if_neg away
    have few : (failures (history ++ [probe]) : Int) < max threshold 1 := by
      rwa [Away, Int.not_le] at away
    rw [decided]
    exact
      { reachable := by
          have before := summary.reachable
          rw [successes]
          constructor
          · exact fun reached => ⟨(before.mp reached).1, few⟩
          · exact fun reached => before.mpr ⟨reached.1, by omega⟩
        lastSeen := by rw [seen]; exact summary.lastSeen
        since := fun reached => by
          rcases summary.since reached with ⟨earlier, burst, first, rest, streak, since⟩
          exact ⟨earlier, burst, first, rest ++ [probe], streak.extend away, since⟩
        away := summary.away
        counted := rfl
        lastProbe := last.symm }

end

theorem fold_concat (threshold : Int) (history : List Probe) (probe : Probe) :
    fold threshold (history ++ [probe]) =
      (fold threshold history).decide probe.present probe.now threshold := by
  rw [fold, List.foldl_concat, fold]

theorem summary_fold (threshold : Int) {history : List Probe} (short : history.length < 2 ^ 62) :
    Summary threshold history (fold threshold history) := by
  induction history using List.reverseRecOn with
  | nil => exact summary_fresh threshold
  | append_singleton history probe induction =>
      rw [List.length_append, List.length_singleton] at short
      have summary := induction (by omega)
      rw [fold_concat]
      cases present : probe.present with
      | true => exact summary.success present
      | false => exact summary.failure present (by omega)

/-! ## Every state is loaded again -/

theorem Streak.mem {threshold : Int} {history before burst rest : List Probe} {first : Probe}
    (streak : Streak threshold history before burst first rest) : first ∈ history := by
  rw [streak.split]
  simp

/-- A time that is zero or that of a probe. -/
theorem time_fits {history : List Probe}
    (clock : ∀ probe ∈ history, 0 < probe.now ∧ InInt64 probe.now) (found : Option Probe)
    (member : ∀ probe ∈ found, probe ∈ history) :
    0 ≤ (found.map Probe.now).getD 0 ∧ InInt64 ((found.map Probe.now).getD 0) := by
  cases found with
  | none => exact ⟨Int.le_refl 0, by decide⟩
  | some probe =>
      have fits := clock probe (member probe rfl)
      exact ⟨Int.le_of_lt fits.1, fits.2⟩

theorem Summary.accepted {threshold : Int} {history : List Probe} {s : State}
    (summary : Summary threshold history s) (short : history.length < 2 ^ 62)
    (clock : ∀ probe ∈ history, 0 < probe.now ∧ InInt64 probe.now) :
    loadState (marshal s ++ ['\n']) = (s, true) := by
  have few := failures_le_length history
  have seen := time_fits clock (lastSuccess history) fun probe member =>
    List.mem_reverse.mp (List.mem_of_find?_eq_some member)
  have last := time_fits clock history.getLast? fun probe member =>
    List.mem_of_getLast? member
  rw [← summary.lastSeen] at seen
  rw [← summary.lastProbe] at last
  have since : InInt64 s.reachableSince ∧ 0 ≤ s.reachableSince ∧
      (s.reachable = true ↔ 0 < s.reachableSince) := by
    cases reachable : s.reachable with
    | false =>
        rw [summary.away reachable]
        exact ⟨by decide, by decide, by decide⟩
    | true =>
        rcases summary.since reachable with ⟨before, burst, first, rest, streak, since⟩
        have fits := clock first streak.mem
        rw [since]
        exact ⟨fits.2, Int.le_of_lt fits.1, iff_of_true rfl fits.1⟩
  have count : 0 ≤ s.consecutiveFailures ∧ InInt64 s.consecutiveFailures := by
    rw [summary.counted]
    exact ⟨by omega, by omega, by omega⟩
  apply loadState_written ⟨seen.2, since.1, count.2, last.2⟩
  have flag : s.reachable = Decidable.decide (0 < s.reachableSince) := by
    rw [Bool.eq_iff_iff, since.2.2, decide_eq_true_iff]
  simp only [State.consistent, Bool.and_eq_true, decide_eq_true_iff]
  exact ⟨⟨⟨⟨seen.1, since.2.1⟩, last.1⟩, count.1⟩, flag⟩

/-- The state sums up the probes, and the next run loads it as it is. -/
theorem fold_summary (threshold : Int) (history : List Probe) (short : history.length < 2 ^ 62)
    (clock : ∀ probe ∈ history, 0 < probe.now ∧ InInt64 probe.now) :
    Summary threshold history (fold threshold history) ∧
      loadState (marshal (fold threshold history) ++ ['\n']) = (fold threshold history, true) :=
  have summary := summary_fold threshold short
  ⟨summary, summary.accepted short clock⟩

/-- A burst below the threshold, and one that reaches it. -/
theorem fold_summary_bursts :
    Summary 2 [⟨true, 10⟩, ⟨false, 20⟩, ⟨true, 30⟩, ⟨false, 40⟩, ⟨false, 50⟩, ⟨true, 60⟩]
        (fold 2 [⟨true, 10⟩, ⟨false, 20⟩, ⟨true, 30⟩, ⟨false, 40⟩, ⟨false, 50⟩, ⟨true, 60⟩]) ∧
      loadState (marshal (fold 2 [⟨true, 10⟩, ⟨false, 20⟩, ⟨true, 30⟩, ⟨false, 40⟩, ⟨false, 50⟩,
        ⟨true, 60⟩]) ++ ['\n']) =
        (⟨60, 60, 0, 60, true⟩, true) :=
  fold_summary 2 _ (by decide) (by decide)

end Homelab.MacPresence
