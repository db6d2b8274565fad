import Homelab.HostAlerts.Hysteresis

/-! # The laws of the notifications

A memory knows of the samples before it as much as the next notification depends on. The
laws are read off what it knows.
-/

namespace Homelab.HostAlerts

open Text

variable {Sample : Type}

structure Turn (Sample : Type) where
  sample : Sample
  notified : Option (Severity × Notice)

def Turn.fired (turn : Turn Sample) : Option Severity := turn.notified.map Prod.fst

/-- The samples of a script that starts without a state file, as its clock goes on. -/
inductive Runs (reading : Sample → Reading) (cooldownHours : Int) :
    List (Turn Sample) → Option String → Prop
  | start : Runs reading cooldownHours [] none
  | next {turns file} (earlier : Runs reading cooldownHours turns file) (sample : Sample)
      (later : ∀ turn ∈ turns.getLast?, (reading turn.sample).now ≤ (reading sample).now) :
      Runs reading cooldownHours
        (turns ++ [⟨sample, (react cooldownHours (reading sample) file).1⟩])
        (some (react cooldownHours (reading sample) file).2)

/-- An episode is under way: the last sample was high. -/
def Open (high : Sample → Prop) (turns : List (Turn Sample)) : Prop :=
  ∃ turn ∈ turns.getLast?, high turn.sample

/-- An episode is a stretch of high samples. Some of them are critical. -/
structure Laws (now : Sample → Nat) (high critical : Sample → Prop) (cooldownHours : Int)
    (turns : List (Turn Sample)) : Prop where
  /-- The first sample of an episode notifies. -/
  opens : ∀ before turn after, turns = before ++ turn :: after → ¬Open high before →
    high turn.sample → turn.fired = some .warn ∨ turn.fired = some .crit
  /-- The first critical sample of an episode notifies that, whatever the cooldown. -/
  escalates : ∀ before episode turn after, turns = before ++ episode ++ turn :: after →
    ¬Open high before → (∀ other ∈ episode, high other.sample ∧ ¬critical other.sample) →
    critical turn.sample → turn.fired = some .crit
  /-- Two notifications of one severity in an episode are a cooldown apart. -/
  apart : ∀ before first between second after severity,
    turns = before ++ first :: between ++ second :: after →
    (∀ other ∈ between, high other.sample) → high second.sample →
    severity ≠ .quiet → first.fired = some severity → second.fired = some severity →
    (now first.sample : Int) + 3600 * cooldownHours ≤ now second.sample
  /-- While the samples stay critical, the next notification is that of the first sample a
  cooldown later. -/
  renews : ∀ before first between turn after,
    turns = before ++ first :: between ++ turn :: after → first.fired = some .crit →
    (∀ other ∈ between, critical other.sample ∧ other.fired = none) → critical turn.sample →
    (turn.fired = some .crit ↔
      (now first.sample : Int) + 3600 * cooldownHours ≤ now turn.sample)
  /-- A sample clears the alert if and only if it ends an episode. -/
  clears : ∀ before turn after, turns = before ++ turn :: after →
    (turn.fired = some .quiet ↔ ¬high turn.sample ∧ Open high before)

/-! ## What the memory knows -/

/-- The judgement of a script: a sample is high where it is not quiet. -/
abbrev High (reading : Sample → Reading) (sample : Sample) : Prop :=
  (reading sample).severity ≠ .quiet

abbrev Critical (reading : Sample → Reading) (sample : Sample) : Prop :=
  (reading sample).severity = .crit

structure Knows (reading : Sample → Reading) (cooldownHours : Int)
    (turns : List (Turn Sample)) (memory : Memory) : Prop where
  fired : memory.fired ≠ .quiet ↔ Open (High reading) turns
  past : ∀ now, (∀ turn ∈ turns.getLast?, (reading turn.sample).now ≤ now) →
    memory.last ≤ now
  calm : ∀ before episode, turns = before ++ episode → ¬Open (High reading) before →
    (∀ turn ∈ episode, (reading turn.sample).severity = .warn) → memory.fired ≠ .crit
  noted : ∀ before first between severity, turns = before ++ first :: between →
    (∀ turn ∈ between, High reading turn.sample) → severity ≠ .quiet →
    first.fired = some severity →
      (reading first.sample).now ≤ memory.last ∧
      (severity = .crit → memory.fired ≠ .crit →
        ((reading first.sample).now : Int) + 3600 * cooldownHours ≤ memory.last)
  latest : ∀ before first between, turns = before ++ first :: between →
    first.fired = some .crit →
    (∀ turn ∈ between, Critical reading turn.sample ∧ turn.fired = none) →
    memory = ⟨(reading first.sample).now, .crit⟩

section

variable {reading : Sample → Reading} {cooldownHours : Int} {turns : List (Turn Sample)}
  {memory : Memory} {file : Option String}

theorem snoc_split {Item : Type} {items before between : List Item} {last first : Item}
    (split : items ++ [last] = before ++ first :: between) :
    (between = [] ∧ before = items ∧ first = last) ∨
      ∃ inner, between = inner ++ [last] ∧ items = before ++ first :: inner := by
  rcases List.eq_nil_or_concat between with rfl | ⟨inner, final, rfl⟩
  · have parts := List.append_inj' split rfl
    exact .inl ⟨rfl, parts.1.symm, (List.cons.inj parts.2).1.symm⟩
  · rw [List.concat_eq_append, ← List.cons_append, ← List.append_assoc] at split
    have parts := List.append_inj' split rfl
    rw [List.concat_eq_append, (List.cons.inj parts.2).1]
    exact .inr ⟨inner, rfl, parts.1⟩

theorem open_snoc {high : Sample → Prop} {turn : Turn Sample} :
    Open high (turns ++ [turn]) ↔ high turn.sample := by
  simp [Open]

/-- The cooldown is counted in whole hours, and a clock that goes on rounds them down. -/
theorem hours_le_iff {last now : Nat} (forward : last ≤ now) :
    cooldownHours ≤ ((now : Int) - last).tdiv 3600 ↔
      (last : Int) + 3600 * cooldownHours ≤ now := by
  rw [Int.tdiv_eq_ediv_of_nonneg (by omega), Int.le_ediv_iff_mul_le (by decide)]
  omega

theorem knows_start : Knows reading cooldownHours [] .initial where
  fired := by simp [Memory.initial, Open]
  past := by simp [Memory.initial]
  calm := by simp [Memory.initial]
  noted := by simp
  latest := by simp

/-- What the machine does with a sample: it takes note of a quiet one, notifies of a high
one, or waits because it has notified of it. -/
inductive Move (cooldownHours : Int) (now : Nat) (memory : Memory) :
    Severity → Option Severity → Memory → Prop
  | quiet : Move cooldownHours now memory .quiet
      (if memory.fired ≠ .quiet then some .quiet else none) ⟨now, .quiet⟩
  | fires {severity} (high : severity ≠ .quiet)
      (due : memory.fired = .quiet ∨ (memory.fired = .warn ∧ severity = .crit) ∨
        (memory.last : Int) + 3600 * cooldownHours ≤ now) :
      Move cooldownHours now memory severity (some severity) ⟨now, severity⟩
  | waits {severity} (high : severity ≠ .quiet)
      (early : (now : Int) < memory.last + 3600 * cooldownHours)
      (held : (severity = .crit ∧ memory.fired = .crit) ∨
        (severity = .warn ∧ memory.fired ≠ .quiet)) :
      Move cooldownHours now memory severity none memory

theorem next_moves {now : Nat} (cooldownHours : Int) (severity : Severity)
    (forward : memory.last ≤ now) :
    Move cooldownHours now memory severity (memory.next cooldownHours now severity).1
      (memory.next cooldownHours now severity).2 := by
  have cooled : cooldownHours ≤ ((now : Int) - memory.last).tdiv 3600 ↔
      (memory.last : Int) + 3600 * cooldownHours ≤ now := hours_le_iff forward
  rcases memory with ⟨last, fired⟩
  cases severity with
  | quiet => exact .quiet
  | warn =>
      simp only [Memory.next, cooled] at *
      by_cases due : fired = .quiet ∨ (last : Int) + 3600 * cooldownHours ≤ now
      · rw [if_pos due]
        exact .fires (by decide) (due.imp_right .inr)
      · rw [if_neg due]
        rw [not_or] at due
        exact .waits (by decide) (not_le.mp due.2) (.inr ⟨rfl, due.1⟩)
  | crit =>
      simp only [Memory.next, cooled] at *
      by_cases due : fired ≠ .crit ∨ (last : Int) + 3600 * cooldownHours ≤ now
      · rw [if_pos due]
        refine .fires (by decide) ?_
        rcases due with other | later
        · cases fired with
          | quiet => exact .inl rfl
          | warn => exact .inr (.inl ⟨rfl, rfl⟩)
          | crit => exact absurd rfl other
        · exact .inr (.inr later)
      · rw [if_neg due]
        rw [not_or, not_not] at due
        rcases due with ⟨rfl, early⟩
        exact .waits (by decide) (not_le.mp early) (.inl ⟨rfl, rfl⟩)

theorem knows_next {turn : Turn Sample} {after : Memory}
    (knows : Knows reading cooldownHours turns memory)
    (later : ∀ last ∈ turns.getLast?, (reading last.sample).now ≤ (reading turn.sample).now)
    (move : Move cooldownHours (reading turn.sample).now memory
      (reading turn.sample).severity turn.fired after) :
    Knows reading cooldownHours (turns ++ [turn]) after := by
  have forward := knows.past _ later
  generalize severityIs : (reading turn.sample).severity = severity at move
  generalize firedIs : turn.fired = fired at move
  constructor
  case fired =>
    rw [open_snoc, High, severityIs]
    cases move with
    | quiet => simp
    | fires high due => simp
    | waits high early held =>
        rcases held with ⟨rfl, crit⟩ | ⟨rfl, notQuiet⟩
        · simp [crit]
        · simp [notQuiet]
  case past =>
    intro now last
    have behind := last turn (by simp)
    cases move with
    | quiet => exact behind
    | fires high due => exact behind
    | waits high early held => exact forward.trans behind
  case calm =>
    intro before episode split ended warm
    rcases List.eq_nil_or_concat episode with rfl | ⟨inner, final, rfl⟩
    · rw [List.append_nil] at split
      rw [← split, open_snoc, High, severityIs, not_not] at ended
      subst ended
      cases move with
      | quiet => simp
      | fires high due => exact absurd rfl high
      | waits high early held => exact absurd rfl high
    · rw [List.concat_eq_append] at split warm
      rw [← List.append_assoc] at split
      have parts := List.append_inj' split rfl
      have last : turn = final := (List.cons.inj parts.2).1
      have warn : severity = .warn := by
        rw [← severityIs, last]
        exact warm final (by simp)
      subst warn
      have calm := knows.calm before inner parts.1 ended fun other member =>
        warm other (by simp [member])
      cases move with
      | fires high due => simp
      | waits high early held => exact calm
  case noted =>
    intro before first between noted split high notQuiet fired_
    rcases snoc_split split with ⟨rfl, rfl, rfl⟩ | ⟨inner, rfl, inside⟩
    · rw [firedIs] at fired_
      cases move with
      | quiet =>
          split at fired_
          · exact absurd (Option.some.inj fired_).symm notQuiet
          · cases fired_
      | fires high due =>
          rw [Option.some.injEq] at fired_
          exact ⟨le_rfl, fun crit other => absurd (fired_.trans crit) other⟩
      | waits high early held => cases fired_
    · have known := knows.noted before first inner noted inside
        (fun other member => high other (by simp [member])) notQuiet fired_
      have here : severity ≠ .quiet := severityIs ▸ high turn (by simp)
      cases move with
      | quiet => exact absurd rfl here
      | fires high due =>
          refine ⟨known.1.trans forward, fun crit other => ?_⟩
          -- A warning after something critical waits for the cooldown.
          by_cases still : memory.fired = .crit
          · rcases due with quiet | ⟨warn, _⟩ | due
            · cases quiet.symm.trans still
            · cases warn.symm.trans still
            · have begun := known.1
              exact le_trans (by omega) due
          · have apart := known.2 crit still
            exact apart.trans (by exact_mod_cast forward)
      | waits high early held => exact known
  case latest =>
    intro before first between split fired_ quietly
    rcases snoc_split split with ⟨rfl, rfl, rfl⟩ | ⟨inner, rfl, inside⟩
    · rw [firedIs] at fired_
      cases move with
      | quiet =>
          split at fired_
          · cases fired_
          · cases fired_
      | fires high due =>
          rw [Option.some.injEq] at fired_
          rw [fired_]
      | waits high early held => cases fired_
    · have known := knows.latest before first inner inside fired_ fun other member =>
        quietly other (by simp [member])
      have last := quietly turn (by simp)
      rw [Critical, severityIs, firedIs] at last
      cases move with
      | quiet => cases last.1
      | fires high due => cases last.2
      | waits high early held => exact known

/-! ## What a run of samples notifies -/

/-- A script writes one line for the value of a sample. -/
def Legible (reading : Sample → Reading) : Prop := ∀ sample, OneLine (reading sample).value

theorem react_moves (legible : Legible reading) (stands : Stands memory file) {sample : Sample}
    (forward : memory.last ≤ (reading sample).now) :
    ∃ next, Stands next (some (react cooldownHours (reading sample) file).2) ∧
      Move cooldownHours (reading sample).now memory (reading sample).severity
        ((react cooldownHours (reading sample) file).1.map Prod.fst) next := by
  have reacts := react_stands cooldownHours (legible sample) stands
  refine ⟨_, reacts.2, ?_⟩
  rw [reacts.1]
  exact next_moves cooldownHours (reading sample).severity forward

theorem runs_know (legible : Legible reading) (runs : Runs reading cooldownHours turns file) :
    ∃ memory, Stands memory file ∧ Knows reading cooldownHours turns memory := by
  induction runs with
  | start => exact ⟨.initial, .inl ⟨rfl, rfl⟩, knows_start⟩
  | @next turns file earlier sample later induction =>
      rcases induction with ⟨memory, stands, knows⟩
      rcases react_moves legible stands (knows.past _ later) with ⟨next, standing, move⟩
      exact ⟨next, standing, knows_next knows later move⟩

/-- A sample of a run is moved by what is known of the samples before it. -/
theorem runs_moves (legible : Legible reading) (runs : Runs reading cooldownHours turns file)
    {before after : List (Turn Sample)} {turn : Turn Sample}
    (split : turns = before ++ turn :: after) :
    ∃ memory next, Knows reading cooldownHours before memory ∧
      memory.last ≤ (reading turn.sample).now ∧
      Move cooldownHours (reading turn.sample).now memory (reading turn.sample).severity
        turn.fired next := by
  induction runs generalizing after with
  | start => simp at split
  | @next turns file earlier sample later induction =>
      rcases snoc_split split with ⟨_, rfl, rfl⟩ | ⟨inner, _, inside⟩
      · rcases runs_know legible earlier with ⟨memory, stands, knows⟩
        have forward := knows.past _ later
        rcases react_moves legible stands forward with ⟨next, _, move⟩
        exact ⟨memory, next, knows, forward, move⟩
      · exact induction inside

theorem Move.severity {now : Nat} {severity notified : Severity} {after : Memory}
    (move : Move cooldownHours now memory severity (some notified) after) :
    severity = notified := by
  generalize firedIs : some notified = fired at move
  cases move with
  | quiet =>
      split at firedIs
      · exact (Option.some.inj firedIs).symm
      · cases firedIs
  | fires high due => exact (Option.some.inj firedIs).symm
  | waits high early held => cases firedIs

/-- The laws, where high and critical samples are what the script takes for them. -/
theorem runs_lawful (legible : Legible reading) (runs : Runs reading cooldownHours turns file) :
    Laws (fun sample => (reading sample).now) (High reading) (Critical reading) cooldownHours
      turns := by
  constructor
  case opens =>
    intro before turn after split ended high
    rcases runs_moves legible runs split with ⟨memory, next, knows, _, move⟩
    have quiet : memory.fired = .quiet := by
      by_contra fired
      exact ended (knows.fired.mp fired)
    rw [High] at high
    generalize (reading turn.sample).severity = severity at move high
    generalize turn.fired = fired at move
    cases move with
    | quiet => exact absurd rfl high
    | fires high due =>
        cases severity with
        | quiet => exact absurd rfl high
        | warn => exact .inl rfl
        | crit => exact .inr rfl
    | waits high early held => simp [quiet] at held
  case escalates =>
    intro before episode turn after split ended calm critical
    rcases runs_moves legible runs split with ⟨memory, next, knows, _, move⟩
    have notYet := knows.calm before episode rfl ended fun other member => by
      have known := calm other member
      cases severity : (reading other.sample).severity <;> simp_all
    rw [Critical] at critical
    rw [critical] at move
    generalize turn.fired = fired at move ⊢
    cases move with
    | fires high due => rfl
    | waits high early held => simp [notYet] at held
  case apart =>
    intro before first between second after severity split high highSecond notQuiet
      firedFirst firedSecond
    have inside : turns = before ++ first :: (between ++ second :: after) := by
      simpa using split
    rcases runs_moves legible runs inside with ⟨_, _, _, _, moveFirst⟩
    rw [firedFirst] at moveFirst
    have highFirst : High reading first.sample := by
      rw [High, moveFirst.severity]
      exact notQuiet
    rcases runs_moves legible runs split with ⟨memory, next, knows, forward, move⟩
    have noted := knows.noted before first between severity rfl high notQuiet firedFirst
    have lasting : memory.fired ≠ .quiet := by
      rw [knows.fired]
      rcases List.eq_nil_or_concat between with rfl | ⟨inner, last, rfl⟩
      · exact open_snoc.mpr highFirst
      · rw [List.concat_eq_append, ← List.cons_append, ← List.append_assoc]
        exact open_snoc.mpr (high last (by simp))
    rw [firedSecond] at move
    have severityIs := move.severity
    rw [severityIs] at move
    generalize firedIs : some severity = fired at move
    cases move with
    | quiet => exact absurd rfl notQuiet
    | fires high due =>
        rcases due with quiet | ⟨warn, crit⟩ | due
        · exact absurd quiet lasting
        · have apart := noted.2 crit (by simp [warn])
          exact apart.trans (by exact_mod_cast forward)
        · have begun := noted.1
          exact le_trans (by omega) due
    | waits high early held => cases firedIs
  case renews =>
    intro before first between turn after split firedFirst quietly critical
    rcases runs_moves legible runs split with ⟨memory, next, knows, _, move⟩
    have memoryIs := knows.latest before first between rfl firedFirst quietly
    subst memoryIs
    rw [Critical] at critical
    rw [critical] at move
    generalize turn.fired = fired at move ⊢
    cases move with
    | fires high due => simpa using due
    | waits high early held => simpa using early
  case clears =>
    intro before turn after split
    rcases runs_moves legible runs split with ⟨memory, next, knows, _, move⟩
    rw [← knows.fired, High]
    generalize (reading turn.sample).severity = severity at move ⊢
    generalize turn.fired = fired at move ⊢
    cases move with
    | quiet => simp
    | fires high due => simp [high]
    | waits high early held => simp [high]

theorem Laws.congr {now : Sample → Nat} {high high' critical critical' : Sample → Prop}
    (laws : Laws now high critical cooldownHours turns)
    (sameHigh : ∀ sample, high sample ↔ high' sample)
    (sameCritical : ∀ sample, critical sample ↔ critical' sample) :
    Laws now high' critical' cooldownHours turns := by
  have highIs : high = high' := funext fun sample => propext (sameHigh sample)
  have criticalIs : critical = critical' := funext fun sample => propext (sameCritical sample)
  subst highIs criticalIs
  exact laws

end

end Homelab.HostAlerts
