import Mathlib.Algebra.Order.Group.Defs
import Mathlib.Algebra.Order.Ring.Int
import Mathlib.Data.List.Basic

/-! # Sliding windows from one counter

A counter that is cleared only when a whole span has passed since the last
counted event never lets more events than its budget into any window of that
span, although it does not remember when the events were.
-/

namespace Homelab.RateWindow

variable {Time : Type} [AddCommGroup Time] [LinearOrder Time]

/-- The times in the half-open window of length `span` that opens at `start`. -/
def within (span start : Time) (times : List Time) : List Time :=
  times.filter fun time => start ≤ time && decide (time < start + span)

theorem within_append (span start : Time) (earlier later : List Time) :
    within span start (earlier ++ later) =
      within span start earlier ++ within span start later := by
  simp [within]

theorem length_within_le (span start : Time) (times : List Time) :
    (within span start times).length ≤ times.length :=
  List.length_filter_le _ _

theorem within_eq_nil {span start : Time} {times : List Time}
    (outside : ∀ time ∈ times, start ≤ time → start + span ≤ time) :
    within span start times = [] := by
  rw [within, List.filter_eq_nil_iff]
  intro time member inside
  simp only [Bool.and_eq_true, decide_eq_true_eq] at inside
  exact absurd inside.2 (not_lt.mpr (outside time member inside.1))

/-- No window holds more than `budget` times. -/
def Bounded (span : Time) (budget : Int) (times : List Time) : Prop :=
  ∀ start, ((within span start times).length : Int) ≤ budget

/-- What the counter knows at `clock`: it counts the events since it was last
cleared, the latest at `last`; the others are a whole span older than those,
and than anything still to come. -/
structure Counts (span : Time) (budget : Int) (times : List Time) (count : Int)
    (last clock : Time) : Prop where
  bounded : Bounded span budget times
  parts : ∃ forgotten counted, times = forgotten ++ counted ∧
    (counted.length : Int) = count ∧ (∀ time ∈ counted, time ≤ last) ∧
    ∀ time ∈ forgotten, time + span ≤ clock ∧
      ∀ later ∈ counted, time + span ≤ later

namespace Counts

variable {span last clock now : Time} {budget count : Int} {times : List Time}

theorem start (nonnegative : 0 ≤ budget) :
    Counts span budget ([] : List Time) 0 last clock :=
  ⟨fun start => by simpa [within] using nonnegative, [], [], by simp⟩

theorem later (counts : Counts span budget times count last clock)
    (passes : clock ≤ now) : Counts span budget times count last now := by
  rcases counts with ⟨bounded, forgotten, counted, equal, length, upTo, old⟩
  refine ⟨bounded, forgotten, counted, equal, length, upTo, ?_⟩
  intro time member
  exact ⟨(old time member).1.trans passes, (old time member).2⟩

variable [IsOrderedAddMonoid Time]

/-- After a whole span without an event the counter is cleared. -/
theorem clear (counts : Counts span budget times count last clock)
    (quiet : last + span ≤ clock) : Counts span budget times 0 last clock := by
  rcases counts with ⟨bounded, forgotten, counted, equal, _, upTo, old⟩
  refine ⟨bounded, times, [], by simp, by simp, by simp, ?_⟩
  intro time member
  refine ⟨?_, by simp⟩
  rw [equal, List.mem_append] at member
  rcases member with member | member
  · exact (old time member).1
  · exact (add_le_add_left (upTo time member) span).trans quiet

/-- An event is counted as long as the budget is not used up. -/
theorem event (counts : Counts span budget times count last clock)
    (ordered : last ≤ clock) (room : count < budget) :
    Counts span budget (times ++ [clock]) (count + 1) clock clock := by
  rcases counts with ⟨bounded, forgotten, counted, equal, length, upTo, old⟩
  have recent : ∀ time ∈ forgotten, ∀ later ∈ counted ++ [clock],
      time + span ≤ later := by
    intro time member later laterMember
    rcases List.mem_append.mp laterMember with laterMember | laterMember
    · exact (old time member).2 later laterMember
    · rw [List.mem_singleton.mp laterMember]
      exact (old time member).1
  refine ⟨?_, forgotten, counted ++ [clock], by simp [equal], by simp [length],
    ?_, fun time member => ⟨(old time member).1, recent time member⟩⟩
  · intro start
    rw [equal, List.append_assoc, within_append]
    by_cases covered : ∃ time ∈ forgotten, start ≤ time
    · rcases covered with ⟨time, member, opened⟩
      have none : within span start (counted ++ [clock]) = [] := by
        apply within_eq_nil
        intro later laterMember _
        exact (add_le_add_left opened span).trans (recent time member later laterMember)
      have held := bounded start
      rw [equal, within_append] at held
      rw [none]
      simp only [List.length_append, List.length_nil] at held ⊢
      omega
    · have none : within span start forgotten = [] := by
        apply within_eq_nil
        intro time member opened
        exact absurd ⟨time, member, opened⟩ covered
      have most := length_within_le span start (counted ++ [clock])
      rw [none]
      simp only [List.nil_append, List.length_append, List.length_singleton] at most ⊢
      omega
  · intro time member
    rcases List.mem_append.mp member with member | member
    · exact (upTo time member).trans ordered
    · exact (List.mem_singleton.mp member).le

end Counts

/-! ## Bursts -/

/-- How many events, the latest of them first, each come less than a span before
the next one, up to the clock. -/
def chain (span : Time) : Time → List Time → Nat
  | _, [] => 0
  | clock, latest :: earlier =>
      if latest + span ≤ clock then 0 else chain span latest earlier + 1

/-- The burst of events at the end of a history that no whole span interrupts. -/
def burst (span clock : Time) (times : List Time) : Nat := chain span clock times.reverse

theorem burst_append_singleton (span clock latest : Time) (times : List Time) :
    burst span clock (times ++ [latest]) =
      if latest + span ≤ clock then 0 else burst span latest times + 1 := by
  rw [burst, List.reverse_append, List.reverse_singleton, List.singleton_append, chain, burst]

/-- A burst is over once it is over, and goes on unchanged until then. -/
theorem burst_later {span clock now : Time} (passes : clock ≤ now) (times : List Time) :
    burst span now times = 0 ∨ burst span now times = burst span clock times := by
  rcases List.eq_nil_or_concat times with rfl | ⟨earlier, latest, rfl⟩
  · exact .inl rfl
  · rw [List.concat_eq_append, burst_append_singleton, burst_append_singleton]
    by_cases ended : latest + span ≤ now
    · exact .inl (if_pos ended)
    · rw [if_neg ended, if_neg fun already => ended (already.trans passes)]
      exact .inr rfl

end Homelab.RateWindow
