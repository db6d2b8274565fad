import Homelab.Foundation.Words
import Homelab.HostAlerts.Laws

/-! # Swap usage alerts

The swap rule of `memory-alert.sh`. An alert is on from the first sample above the upper
threshold to the first one below the lower threshold, and what lies between the two changes
nothing. The state file is one line of three words.
-/

namespace Homelab.HostAlerts

open Text

namespace Swap

structure Config where
  high : Int
  low : Int
  cooldownHours : Int

/-- What `free` and `docker stats` print. A number is missing where there is no `Swap` line. -/
structure Sample where
  now : Nat
  total : Option Nat
  used : Option Nat
  memTotal : String
  memUsed : String
  memFree : String
  top3 : String
deriving DecidableEq

/-- `[ "$SWAP_TOTAL" -gt 0 ]`. The test fails of a text that is no number. -/
def Sample.hasSwap (sample : Sample) : Bool := 0 < sample.total.getD 0

def Sample.pct (sample : Sample) : Nat := sample.used.getD 0 * 100 / sample.total.getD 0

inductive Event
  | fired
  | cleared
deriving DecidableEq, Repr

/-! ## The state file -/

structure Words where
  lastTs : String
  lastPct : String
  fired : String
deriving DecidableEq

def readState (file : Option String) : Words :=
  let line : String := .ofList ((file.getD "0 0 0\n").toList.takeWhile (· ≠ '\n'))
  let words := awkFields line
  ⟨words.getD 0 "", words.getD 1 "", words.getD 2 ""⟩

def writeState (ts pct fired : String) : String := printLines [ts ++ " " ++ pct ++ " " ++ fired]

/-! ## The notifications -/

def Sample.usage (sample : Sample) : String :=
  let text (number : Option Nat) := (number.map toString).getD ""
  text sample.used ++ "M/" ++ text sample.total ++ "M"

def alert (sample : Sample) : Notice :=
  let pct := toString sample.pct
  let urgent := 90 ≤ sample.pct
  { title := "Swap at " ++ pct ++ "% (" ++ sample.usage ++ ")"
    priority := if urgent then "urgent" else "high"
    tags := (if urgent then "rotating_light" else "warning") ++ ",brain"
    body := "**RAM:** " ++ sample.memUsed ++ " / " ++ sample.memTotal ++ " (" ++
      sample.memFree ++ " free)\n\n**Top containers:**\n" ++ sample.top3 }

def recovered (cfg : Config) (sample : Sample) : Notice :=
  let pct := toString sample.pct
  { title := "Swap recovered (" ++ pct ++ "%)"
    priority := "low"
    tags := "white_check_mark"
    body := "Swap dropped to " ++ pct ++ "% (was ≥" ++ toString cfg.high ++
      "%). Alert cleared." }

def react (cfg : Config) (sample : Sample) (file : Option String) :
    Option (Event × Notice) × Option String :=
  if sample.hasSwap then
    let state := readState file
    let pct := toString sample.pct
    let now := toString sample.now
    let ageHours := ((sample.now : Int) - arith state.lastTs).tdiv 3600
    if cfg.high ≤ sample.pct ∧ (state.fired ≠ "1" ∨ cfg.cooldownHours ≤ ageHours) then
      (some (.fired, alert sample), some (writeState now pct "1"))
    else if state.fired = "1" ∧ sample.pct ≤ cfg.low then
      (some (.cleared, recovered cfg sample), some (writeState now pct "0"))
    else (none, some (writeState state.lastTs pct state.fired))
  else (none, file)

/-! ## Runs -/

structure Turn where
  sample : Sample
  sent : Option (Event × Notice)

def Turn.event (turn : Turn) : Option Event := turn.sent.map Prod.fst

/-- The samples of a script that starts without a state file, as its clock goes on. -/
inductive Runs (cfg : Config) : List Turn → Option String → Prop
  | start : Runs cfg [] none
  | next {turns file} (earlier : Runs cfg turns file) (sample : Sample)
      (later : ∀ turn ∈ turns.getLast?, turn.sample.now ≤ sample.now) :
      Runs cfg (turns ++ [⟨sample, (react cfg sample file).1⟩]) (react cfg sample file).2

def High (cfg : Config) (sample : Sample) : Prop :=
  sample.hasSwap = true ∧ cfg.high ≤ sample.pct

def Low (cfg : Config) (sample : Sample) : Prop :=
  sample.hasSwap = true ∧ sample.pct ≤ cfg.low

/-- The alert is on: no low sample has followed the latest high one. -/
def On (cfg : Config) (turns : List Turn) : Prop :=
  ∃ before turn after, turns = before ++ turn :: after ∧ High cfg turn.sample ∧
    ∀ other ∈ after, ¬Low cfg other.sample

def lastFired (turns : List Turn) : Option Turn :=
  (turns.filter fun turn => turn.event = some .fired).getLast?

/-- What is sent is settled by the samples before and by when it last fired. -/
structure Disciplined (cfg : Config) (turns : List Turn) : Prop where
  /-- A high sample fires when the alert is off, or when the cooldown is over. -/
  fires : ∀ before turn after, turns = before ++ turn :: after →
    (turn.event = some .fired ↔ High cfg turn.sample ∧ (¬On cfg before ∨
      ∃ last ∈ lastFired before,
        (last.sample.now : Int) + 3600 * cfg.cooldownHours ≤ turn.sample.now))
  /-- A low sample clears the alert exactly once. -/
  clears : ∀ before turn after, turns = before ++ turn :: after →
    (turn.event = some .cleared ↔ Low cfg turn.sample ∧ On cfg before)

/-! ## What the state file stands for -/

/-- When it last fired or cleared, and whether the alert is on. -/
structure Memory where
  last : Nat
  firing : Bool

def Memory.initial : Memory := ⟨0, false⟩

def digit (firing : Bool) : String := if firing then "1" else "0"

/-- The file holds the memory, or there is none and nothing to remember. -/
def Stands (memory : Memory) (file : Option String) : Prop :=
  (file = none ∧ memory = .initial) ∨
    ∃ pct : Nat,
      file = some (writeState (toString memory.last) (toString pct) (digit memory.firing))

theorem digit_eq_one {firing : Bool} : digit firing = "1" ↔ firing = true := by
  cases firing <;> decide

theorem spaceless_digit (firing : Bool) : Spaceless (digit firing) ∧ digit firing ≠ "" := by
  cases firing <;> decide

theorem readState_writeState {ts pct fired : String} (solidTs : ts ≠ "") (solidPct : pct ≠ "")
    (solidFired : fired ≠ "") (spacelessTs : Spaceless ts) (spacelessPct : Spaceless pct)
    (spacelessFired : Spaceless fired) :
    readState (some (writeState ts pct fired)) = ⟨ts, pct, fired⟩ := by
  have single : OneLine (ts ++ " " ++ pct ++ " " ++ fired) := by
    intro newline
    simp only [String.toList_append, List.mem_append] at newline
    have blank : '\n' ∉ " ".toList := by decide
    rcases newline with (((inTs | inBlank) | inPct) | inBlank) | inFired
    · exact spacelessTs.oneLine inTs
    · exact blank inBlank
    · exact spacelessPct.oneLine inPct
    · exact blank inBlank
    · exact spacelessFired.oneLine inFired
  have words : awkFields (ts ++ " " ++ pct ++ " " ++ fired) = [ts, pct, fired] := by
    have grouped : ts ++ " " ++ pct ++ " " ++ fired = ts ++ " " ++ (pct ++ " " ++ fired) := by
      simp only [String.append_assoc]
    rw [grouped, awkFields_cons spacelessTs solidTs, awkFields_cons spacelessPct solidPct,
      awkFields_word spacelessFired solidFired]
  rw [readState, Option.getD_some, writeState, takeWhile_printLines single, String.ofList_toList,
    words]
  rfl

theorem readState_stands {memory : Memory} {file : Option String}
    (stands : Stands memory file) :
    arith (readState file).lastTs = memory.last ∧
      ((readState file).fired = "1" ↔ memory.firing = true) ∧
      ∀ pct : Nat, Stands memory
        (some (writeState (readState file).lastTs (toString pct) (readState file).fired)) := by
  rcases stands with ⟨rfl, rfl⟩ | ⟨pct, rfl⟩
  · refine ⟨by decide, by decide, fun pct => .inr ⟨pct, ?_⟩⟩
    rfl
  · have digit := spaceless_digit memory.firing
    rw [readState_writeState (toString_ne_empty _) (toString_ne_empty _) digit.2
      (spaceless_toString _) (spaceless_toString _) digit.1]
    refine ⟨?_, digit_eq_one, fun pct => .inr ⟨pct, rfl⟩⟩
    rw [arith, parseInt_toString]
    rfl

def Memory.next (cfg : Config) (sample : Sample) (memory : Memory) : Option Event × Memory :=
  if sample.hasSwap then
    if cfg.high ≤ sample.pct ∧ (memory.firing = false ∨
        cfg.cooldownHours ≤ ((sample.now : Int) - memory.last).tdiv 3600) then
      (some .fired, ⟨sample.now, true⟩)
    else if memory.firing = true ∧ sample.pct ≤ cfg.low then (some .cleared, ⟨sample.now, false⟩)
    else (none, memory)
  else (none, memory)

theorem react_stands {memory : Memory} {file : Option String} (cfg : Config) (sample : Sample)
    (stands : Stands memory file) :
    (react cfg sample file).1.map Prod.fst = (memory.next cfg sample).1 ∧
      Stands (memory.next cfg sample).2 (react cfg sample file).2 := by
  rcases readState_stands stands with ⟨last, fired, rewritten⟩
  have off : (readState file).fired ≠ "1" ↔ memory.firing = false := by simp [fired]
  simp only [react, Memory.next, last, off, fired]
  split
  · split
    · exact ⟨rfl, .inr ⟨sample.pct, rfl⟩⟩
    · split
      · exact ⟨rfl, .inr ⟨sample.pct, rfl⟩⟩
      · exact ⟨rfl, rewritten sample.pct⟩
  · exact ⟨rfl, stands⟩

/-! ## What the memory knows -/

structure Knows (cfg : Config) (turns : List Turn) (memory : Memory) : Prop where
  on : memory.firing = true ↔ On cfg turns
  fired : memory.firing = true → ∃ last ∈ lastFired turns, last.sample.now = memory.last
  past : ∀ now, (∀ turn ∈ turns.getLast?, turn.sample.now ≤ now) → memory.last ≤ now

section

variable {cfg : Config} {turns : List Turn} {turn : Turn} {memory : Memory}
  {file : Option String}

theorem knows_start : Knows cfg [] .initial where
  on := by simp [Memory.initial, On]
  fired := by simp [Memory.initial]
  past := by simp [Memory.initial]

theorem on_append_singleton :
    On cfg (turns ++ [turn]) ↔ High cfg turn.sample ∨ (On cfg turns ∧ ¬Low cfg turn.sample) := by
  constructor
  · rintro ⟨before, first, after, split, high, quiet⟩
    rcases snoc_split split with ⟨rfl, rfl, rfl⟩ | ⟨inner, rfl, rfl⟩
    · exact .inl high
    · refine .inr ⟨⟨before, first, inner, rfl, high, fun other member => ?_⟩, ?_⟩
      · exact quiet other (by simp [member])
      · exact quiet turn (by simp)
  · rintro (high | ⟨⟨before, first, after, rfl, high, quiet⟩, notLow⟩)
    · exact ⟨turns, turn, [], rfl, high, by simp⟩
    · refine ⟨before, first, after ++ [turn], by simp, high, fun other member => ?_⟩
      rcases List.mem_append.mp member with member | member
      · exact quiet other member
      · rw [List.mem_singleton.mp member]
        exact notLow

theorem lastFired_append_singleton :
    lastFired (turns ++ [turn]) =
      if turn.event = some .fired then some turn else lastFired turns := by
  by_cases fired : turn.event = some .fired <;> simp [lastFired, List.filter_append, fired]

theorem Knows.next_fired (knows : Knows cfg turns memory) {sample : Sample}
    (later : ∀ last ∈ turns.getLast?, last.sample.now ≤ sample.now) :
    (memory.next cfg sample).1 = some .fired ↔ High cfg sample ∧ (¬On cfg turns ∨
      ∃ last ∈ lastFired turns,
        (last.sample.now : Int) + 3600 * cfg.cooldownHours ≤ sample.now) := by
  have forward := knows.past _ later
  have cooled : cfg.cooldownHours ≤ ((sample.now : Int) - memory.last).tdiv 3600 ↔
      (memory.last : Int) + 3600 * cfg.cooldownHours ≤ sample.now := hours_le_iff forward
  have due : (memory.firing = false ∨
      cfg.cooldownHours ≤ ((sample.now : Int) - memory.last).tdiv 3600) ↔
      (¬On cfg turns ∨ ∃ last ∈ lastFired turns,
        (last.sample.now : Int) + 3600 * cfg.cooldownHours ≤ sample.now) := by
    rw [cooled, ← knows.on, Bool.not_eq_true]
    cases firing : memory.firing with
    | false => simp
    | true =>
        rcases knows.fired firing with ⟨last, latest, same⟩
        rw [Option.mem_def] at latest
        simp [latest, same]
  rw [← due, High, Memory.next]
  split
  · next present =>
      split
      · next fires => simp [present, fires]
      · next waits =>
          split <;> simp_all
  · next absent => simp [absent]

theorem Knows.next_cleared (knows : Knows cfg turns memory) {sample : Sample}
    (ordered : cfg.low < cfg.high) :
    (memory.next cfg sample).1 = some .cleared ↔ Low cfg sample ∧ On cfg turns := by
  rw [← knows.on, Low, Memory.next]
  split
  · next present =>
      split
      · next fires =>
          have above : ¬(sample.pct : Int) ≤ cfg.low := by omega
          simp [above]
      · split
        · next clears => simp [present, clears]
        · next still => simp only [reduceCtorEq, present, true_and, false_iff]; tauto
  · next absent => simp [absent]

theorem knows_next (ordered : cfg.low < cfg.high) (knows : Knows cfg turns memory)
    (later : ∀ last ∈ turns.getLast?, last.sample.now ≤ turn.sample.now)
    (sent : turn.event = (memory.next cfg turn.sample).1) :
    Knows cfg (turns ++ [turn]) (memory.next cfg turn.sample).2 := by
  have forward := knows.past _ later
  rw [Memory.next] at sent ⊢
  split
  · next present =>
      rw [if_pos present] at sent
      split
      · next fires =>
          rw [if_pos fires] at sent
          constructor
          · simp [on_append_singleton, High, present, fires.1]
          · exact fun _ => ⟨turn, by rw [lastFired_append_singleton, if_pos sent]; rfl, rfl⟩
          · exact fun now last => last turn (by simp)
      · next waits =>
          rw [if_neg waits] at sent
          split
          · next clears =>
              have below : ¬cfg.high ≤ turn.sample.pct := by omega
              constructor
              · simp [on_append_singleton, High, Low, present, below, clears.2]
              · exact fun firing => absurd firing (by simp)
              · exact fun now last => last turn (by simp)
          · next still =>
              rw [if_neg still] at sent
              have kept : memory.firing = true ↔ On cfg (turns ++ [turn]) := by
                rw [on_append_singleton, ← knows.on, High, Low]
                cases firing : memory.firing <;> simp_all
              refine ⟨kept, fun firing => ?_, fun now last => ?_⟩
              · rw [lastFired_append_singleton, if_neg (by simp [sent])]
                exact knows.fired firing
              · exact forward.trans (last turn (by simp))
  · next absent =>
      rw [if_neg absent] at sent
      refine ⟨?_, fun firing => ?_, fun now last => ?_⟩
      · rw [on_append_singleton, ← knows.on, High, Low]
        simp [absent]
      · rw [lastFired_append_singleton, if_neg (by simp [sent])]
        exact knows.fired firing
      · exact forward.trans (last turn (by simp))

theorem runs_know (ordered : cfg.low < cfg.high) (runs : Runs cfg turns file) :
    ∃ memory, Stands memory file ∧ Knows cfg turns memory := by
  induction runs with
  | start => exact ⟨.initial, .inl ⟨rfl, rfl⟩, knows_start⟩
  | @next turns file earlier sample later induction =>
      rcases induction with ⟨memory, stands, knows⟩
      have reacts := react_stands cfg sample stands
      exact ⟨_, reacts.2, knows_next ordered knows later reacts.1⟩

theorem runs_next (ordered : cfg.low < cfg.high) (runs : Runs cfg turns file)
    {before after : List Turn} (split : turns = before ++ turn :: after) :
    ∃ memory, Knows cfg before memory ∧
      (∀ last ∈ before.getLast?, last.sample.now ≤ turn.sample.now) ∧
      turn.event = (memory.next cfg turn.sample).1 := by
  induction runs generalizing after with
  | start => simp at split
  | @next turns file earlier sample later induction =>
      rcases snoc_split split with ⟨_, rfl, rfl⟩ | ⟨inner, _, inside⟩
      · rcases runs_know ordered earlier with ⟨memory, stands, knows⟩
        exact ⟨memory, knows, later, (react_stands cfg sample stands).1⟩
      · exact induction inside

/-- The swap alert is a switch with two thresholds, and repeats itself only after the
cooldown. -/
theorem swap_disciplined (ordered : cfg.low < cfg.high) (runs : Runs cfg turns file) :
    Disciplined cfg turns where
  fires := by
    intro before turn after split
    rcases runs_next ordered runs split with ⟨memory, knows, later, sent⟩
    rw [sent]
    exact knows.next_fired later
  clears := by
    intro before turn after split
    rcases runs_next ordered runs split with ⟨memory, knows, _, sent⟩
    rw [sent]
    exact knows.next_cleared ordered

end

def sampleOf (now used : Nat) : Sample := ⟨now, some 100, some used, "8G", "4G", "4G", ""⟩

/-- Between the thresholds nothing is sent, and the low sample after it clears the alert. -/
theorem swap_disciplined_episode : ∃ turns file, Runs ⟨85, 70, 24⟩ turns file ∧
    turns.map Turn.sample = [sampleOf 0 90, sampleOf 3600 80, sampleOf 7200 60] ∧
    Disciplined ⟨85, 70, 24⟩ turns := by
  have first : Runs ⟨85, 70, 24⟩ _ _ := Runs.start.next (sampleOf 0 90) (by simp)
  have second := first.next (sampleOf 3600 80) (by simp [sampleOf])
  have third := second.next (sampleOf 7200 60) (by simp [sampleOf])
  exact ⟨_, _, third, rfl, swap_disciplined (by decide) third⟩

end Swap

end Homelab.HostAlerts
