import Homelab.MacPresence.Presence

/-! # What a run leaves for the next one

Every state that is loaded and decided upon is loaded again, but for a count of failures that
leaves its range.
-/

namespace Homelab.MacPresence

open Text GoText GoJson

/-! ## Loaded states -/

theorem readInt_fits {tree : Tree} {current value : Int} (fits : InInt64 current)
    (read : readInt tree current = some value) : InInt64 value := by
  rw [readInt.eq_def] at read
  split at read
  · cases read
    exact fits
  · next numeral => exact numeral.int64_fits read
  · cases read

theorem State.Fits.set {s next : State} (fits : s.Fits) {field : Line × Tree}
    (read : s.set field = some next) : next.Fits := by
  rcases field with ⟨name, tree⟩
  simp only [State.set] at read
  split at read
  · rcases Option.map_eq_some_iff.mp read with ⟨value, found, rfl⟩
    exact { fits with lastSeen := readInt_fits fits.lastSeen found }
  split at read
  · rcases Option.map_eq_some_iff.mp read with ⟨value, found, rfl⟩
    exact { fits with reachableSince := readInt_fits fits.reachableSince found }
  split at read
  · rcases Option.map_eq_some_iff.mp read with ⟨value, found, rfl⟩
    exact { fits with consecutiveFailures := readInt_fits fits.consecutiveFailures found }
  split at read
  · rcases Option.map_eq_some_iff.mp read with ⟨value, found, rfl⟩
    exact { fits with lastProbe := readInt_fits fits.lastProbe found }
  split at read
  · rcases Option.map_eq_some_iff.mp read with ⟨value, found, rfl⟩
    exact { fits with }
  · cases read

theorem fresh_fits : State.fresh.Fits := by
  constructor <;> decide

theorem decode_fits {tree : Tree} {s : State} (read : decode tree = some s) : s.Fits := by
  cases tree with
  | null =>
      cases read
      exact fresh_fits
  | dict fields =>
      have each : ∀ start : State, start.Fits → fields.foldlM State.set start = some s →
          s.Fits := by
        clear read
        induction fields with
        | nil =>
            intro start fits read
            cases read
            exact fits
        | cons field rest induction =>
            intro start fits read
            rw [List.foldlM_cons] at read
            rcases Option.bind_eq_some_iff.mp read with ⟨next, here, later⟩
            exact induction next (fits.set here) later
      exact each _ fresh_fits read
  | bool => cases read
  | number => cases read
  | str => cases read
  | list => cases read

/-- What is accepted is consistent, and made of numbers that Go holds. -/
theorem loadState_accepted {data : Line} {s : State} (accepted : loadState data = (s, true)) :
    s.Fits ∧ s.consistent = true := by
  rw [loadState] at accepted
  split at accepted
  · cases accepted
    exact ⟨fresh_fits, by decide⟩
  split at accepted
  · cases accepted
  · next read =>
      split at accepted
      · next consistent =>
          cases accepted
          rcases Option.bind_eq_some_iff.mp read with ⟨tree, _, decoded⟩
          exact ⟨decode_fits decoded, consistent⟩
      · cases accepted

/-- The five conditions on a state. -/
theorem consistent_iff {s : State} : s.consistent = true ↔
    (0 ≤ s.lastSeen ∧ 0 ≤ s.reachableSince ∧ 0 ≤ s.lastProbe ∧ 0 ≤ s.consecutiveFailures) ∧
      (s.reachable = true ↔ 0 < s.reachableSince) := by
  have flag : s.reachable = Decidable.decide (0 < s.reachableSince) ↔
      (s.reachable = true ↔ 0 < s.reachableSince) := by
    rw [Bool.eq_iff_iff, decide_eq_true_iff]
  rw [← flag]
  simp only [State.consistent, Bool.and_eq_true, decide_eq_true_iff, and_assoc]

/-! ## Decided states -/

theorem inInt64_zero : InInt64 0 := by
  decide

section

variable {prev : State} {now : Int} (threshold : Int)

theorem decide_success (fits : prev.Fits) (consistent : prev.consistent = true)
    (positive : 0 < now) (clock : InInt64 now) :
    (prev.decide true now threshold).Fits ∧ (prev.decide true now threshold).consistent = true := by
  rcases consistent_iff.mp consistent with ⟨⟨_, since, _, _⟩, flag⟩
  cases reachable : prev.reachable with
  | true =>
      have decided : prev.decide true now threshold =
          { prev with lastProbe := now, consecutiveFailures := 0, lastSeen := now } := by
        simp [State.decide, reachable]
      rw [decided, consistent_iff]
      exact ⟨⟨clock, fits.reachableSince, inInt64_zero, clock⟩,
        ⟨by simp only; omega, since, by simp only; omega, Int.le_refl 0⟩, flag⟩
  | false =>
      have decided : prev.decide true now threshold = ⟨now, now, 0, now, true⟩ := by
        simp [State.decide, reachable]
      rw [decided, consistent_iff]
      exact ⟨⟨clock, clock, inInt64_zero, clock⟩,
        ⟨by simp only; omega, by simp only; omega, by simp only; omega, Int.le_refl 0⟩,
        iff_of_true rfl positive⟩

/-- A failure, where the count stays in its range. -/
theorem decide_failure (fits : prev.Fits) (consistent : prev.consistent = true)
    (positive : 0 < now) (clock : InInt64 now)
    (room : prev.consecutiveFailures < 2 ^ 63 - 1) :
    (prev.decide false now threshold).Fits ∧
      (prev.decide false now threshold).consistent = true ∧
      (max threshold 1 ≤ prev.consecutiveFailures + 1 →
        (prev.decide false now threshold).reachable = false) := by
  rcases consistent_iff.mp consistent with ⟨⟨seen, since, _, count⟩, flag⟩
  have counted : wrap (prev.consecutiveFailures + 1) = prev.consecutiveFailures + 1 :=
    wrap_of_inInt64 ⟨by omega, by omega⟩
  have countFits : InInt64 (prev.consecutiveFailures + 1) := ⟨by omega, by omega⟩
  by_cases away : max threshold 1 ≤ prev.consecutiveFailures + 1
  · have decided : prev.decide false now threshold =
        { prev with
          lastProbe := now, consecutiveFailures := prev.consecutiveFailures + 1,
          reachable := false, reachableSince := 0 } := by
      simp only [State.decide, counted, Bool.false_eq_true, if_false]
      exact if_pos away
    rw [decided, consistent_iff]
    exact ⟨⟨fits.lastSeen, inInt64_zero, countFits, clock⟩,
      ⟨⟨seen, Int.le_refl 0, by simp only; omega, by simp only; omega⟩, by simp⟩, fun _ => rfl⟩
  · have decided : prev.decide false now threshold =
        { prev with
          lastProbe := now, consecutiveFailures := prev.consecutiveFailures + 1 } := by
      simp only [State.decide, counted, Bool.false_eq_true, if_false]
      exact if_neg away
    rw [decided, consistent_iff]
    exact ⟨⟨fits.lastSeen, fits.reachableSince, countFits, clock⟩,
      ⟨⟨seen, since, by simp only; omega, by simp only; omega⟩, flag⟩,
      fun reached => absurd reached away⟩

/-- The count that leaves its range is negative. -/
theorem decide_overflow (full : prev.consecutiveFailures = 2 ^ 63 - 1) :
    (prev.decide false now threshold).consecutiveFailures = -2 ^ 63 := by
  have counted : wrap (prev.consecutiveFailures + 1) = -2 ^ 63 := by
    rw [full]
    decide
  simp only [State.decide, counted, Bool.false_eq_true, if_false]
  split <;> rfl

end

/-! ## One run after the other -/

/-- The next run loads what this one decided, and enough failures leave the Mac away. -/
structure Closed (prev : State) (present : Bool) (now threshold : Int) : Prop where
  loaded : loadState (marshal (prev.decide present now threshold) ++ ['\n']) =
    (prev.decide present now threshold, true)
  away : present = false → max threshold 1 ≤ prev.consecutiveFailures + 1 →
    (prev.decide present now threshold).reachable = false

theorem closed_iff {data : Line} {prev : State} (accepted : loadState data = (prev, true))
    (present : Bool) {now : Int} (positive : 0 < now) (clock : InInt64 now) (threshold : Int) :
    Closed prev present now threshold ↔
      present = true ∨ prev.consecutiveFailures < 2 ^ 63 - 1 := by
  rcases loadState_accepted accepted with ⟨fits, consistent⟩
  constructor
  · intro closed
    cases present with
    | true => exact .inl rfl
    | false =>
        right
        by_contra full
        have high := fits.consecutiveFailures.2
        have overflow : (prev.decide false now threshold).consecutiveFailures = -2 ^ 63 :=
          decide_overflow threshold (by omega)
        have counts := (consistent_iff.mp (loadState_accepted closed.loaded).2).1.2.2.2
        omega
  · intro room
    cases present with
    | true =>
        have next := decide_success threshold fits consistent positive clock
        exact ⟨loadState_written next.1 next.2, fun impossible => by cases impossible⟩
    | false =>
        have room := room.resolve_left (by decide)
        have next := decide_failure threshold fits consistent positive clock room
        exact ⟨loadState_written next.1 next.2.1, fun _ => next.2.2⟩

/-- A Mac reachable since 5 that has missed two probes. -/
def waveringState : State := ⟨40, 5, 2, 50, true⟩

/-- The third failure ends the streak, and the file it leaves is read back. -/
theorem closed_iff_wavering : Closed waveringState false 60 3 ∧
    waveringState.decide false 60 3 = ⟨40, 0, 3, 60, false⟩ := by
  have fits : waveringState.Fits := by constructor <;> decide
  have stored : loadState (marshal waveringState ++ ['\n']) = (waveringState, true) :=
    loadState_written fits (by decide)
  have closed := closed_iff stored false (show (0 : Int) < 60 by decide) (by decide) 3
  exact ⟨closed.mpr (.inr (by decide)), by decide⟩

/-- The most failures that are accepted. -/
def fullState : State := ⟨5, 5, 2 ^ 63 - 1, 5, true⟩

theorem full_not_closed : ¬∀ (data : Line) (prev : State), loadState data = (prev, true) →
    ∀ (present : Bool) (now threshold : Int), 0 < now → InInt64 now →
      Closed prev present now threshold := by
  intro all
  have fits : fullState.Fits := by constructor <;> decide
  have closed := all _ fullState (loadState_written fits (by decide)) false 60 3 (by decide)
    (by decide)
  have overflow : (fullState.decide false 60 3).consecutiveFailures = -2 ^ 63 :=
    decide_overflow 3 rfl
  have counts := (consistent_iff.mp (loadState_accepted closed.loaded).2).1.2.2.2
  omega

end Homelab.MacPresence
