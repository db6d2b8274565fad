import Homelab.Effects.Simulation
import Homelab.NfsMount.Host
import Mathlib.Data.List.Forall2
import Mathlib.Data.List.Nodup

/-! # The children of the supervisor

`run` once more, with every child it starts: a child exists until its exit status has been
collected, however long that takes after it was killed. `PENDING` is handed from one call
to the next.
-/

namespace Homelab.NfsMount.Children

open Effects

inductive Life
  | running
  | exited
  | collected
deriving DecidableEq, Repr

structure Child where
  command : Command
  life : Life
deriving DecidableEq, Repr

/-- Every child that was ever started. A child is named by its place in the list. -/
abbrev World := List Child

/-- How `communicate` ends: with the output, with the timeout, or because the output is not
text. -/
inductive Talk
  | ended (completed : Completed)
  | expired
  | undecodable
deriving DecidableEq, Repr

inductive Operation
  | poll (child : Nat)
  | popen (command : Command)
  | communicate (child : Nat) (timeout : ℚ)
  | kill (child : Nat)
  | close (child : Nat)

/-- Whether `poll` has an exit status; what `Popen` raises or returns. -/
abbrev Answer : Operation → Type
  | .poll _ => Bool
  | .popen _ => Except String Nat
  | .communicate _ _ => Talk
  | .kill _ => Unit
  | .close _ => Unit

abbrev interface : Interface := ⟨Operation, Answer⟩

def ask (operation : Operation) : Program interface (Answer operation) :=
  .call operation .done

/-! ## The program -/

/-- `PENDING`, in the order of its entries. -/
abbrev Pending := List (Command × Nat)

def Pending.keys (pending : Pending) : List Command := pending.map Prod.fst

def reap : Pending → Program interface Pending
  | [] => pure []
  | (key, child) :: rest => do
      let exited ← ask (.poll child)
      let others ← reap rest
      pure (if exited then others else (key, child) :: others)

def stillBlocked : Completed := ⟨124, "", "previous operation still blocked"⟩

def timedOut : Completed := ⟨124, "", "operation timed out"⟩

/-- The call of `run`, and `PENDING` after it. -/
abbrev Called := Pending × Except Exception Completed

def abandon (pending : Pending) (command : Command) (child : Nat) :
    Program interface Called := do
  let _ ← ask (.kill child)
  match ← ask (.communicate child (1 / 2)) with
  | .ended _ => pure (pending, .ok timedOut)
  | .undecodable => pure (pending, .error .unicodeDecodeError)
  | .expired => do
      let _ ← ask (.close child)
      pure (pending ++ [(command, child)], .ok timedOut)

def attend (pending : Pending) (command : Command) (timeout : ℚ) (child : Nat) :
    Program interface Called := do
  match ← ask (.communicate child timeout) with
  | .ended completed => pure (pending, .ok completed)
  | .undecodable => pure (pending, .error .unicodeDecodeError)
  | .expired => abandon pending command child

def spawn (pending : Pending) (command : Command) (timeout : ℚ) :
    Program interface Called := do
  match ← ask (.popen command) with
  | .error message => pure (pending, .ok ⟨127, "", message⟩)
  | .ok child => attend pending command timeout child

instance : LawfulBEq Command := inferInstance

def run (pending : Pending) (command : Command) (timeout : ℚ) :
    Program interface Called := do
  let blocked ← reap pending
  if command ∈ blocked.keys then pure (blocked, .ok stillBlocked)
  else spawn blocked command timeout

/-! ## The host -/

def Running (world : World) (child : Nat) : Prop :=
  ∃ command, world[child]? = some ⟨command, .running⟩

/-- The child is a process of the host, if only one whose status was not collected. -/
def Existing (world : World) (command : Command) (child : Nat) : Prop :=
  ∃ life, world[child]? = some ⟨command, life⟩ ∧ life ≠ .collected

def AtMostOne (world : World) : Prop :=
  ∀ command child other, Existing world command child → Existing world command other →
    child = other

/-- A running child may exit at any time, for reasons of its own or because it was killed. -/
inductive Child.MayExit : Child → Child → Prop
  | stays (child : Child) : Child.MayExit child child
  | exits (command : Command) : Child.MayExit ⟨command, .running⟩ ⟨command, .exited⟩

def collect (world : World) (child : Nat) : World :=
  world.modify child fun known => { known with life := .collected }

/-- What an operation does once it takes effect. A child is polled before it is killed. -/
def Acts (world : World) : (operation : Operation) → Answer operation → World → Prop
  | .poll child, exited, after =>
      if exited = true then ¬Running world child ∧ after = collect world child
      else Running world child ∧ after = world
  | .popen command, started, after =>
      match (started : Except String Nat) with
      | .error _ => after = world
      | .ok child => child = world.length ∧ after = world ++ [⟨command, .running⟩]
  | .communicate child _, talk, after =>
      if talk = Talk.expired then after = world
      else ¬Running world child ∧ after = collect world child
  | .kill child, _, after =>
      after = world ∨ ¬Running world child ∧ after = collect world child
  | .close _, _, after => after = world

def ChildStep (world : World) (operation : Operation) (answer : Answer operation)
    (after : World) : Prop :=
  ∃ middle, List.Forall₂ Child.MayExit world middle ∧ Acts middle operation answer after

def system : System interface World := ⟨ChildStep⟩

structure Call where
  command : Command
  before : World
  moments : List (Moment interface World)
  after : World
  result : Except Exception Completed

inductive Session : List Call → Pending → World → Prop
  | start : Session [] [] []
  | next {calls pending world moments after final result} (earlier : Session calls pending world)
      (command : Command) (timeout : ℚ)
      (execution : Executes system (run pending command timeout) world moments final
        (some (after, result))) :
      Session (calls ++ [⟨command, world, moments, final, result⟩]) after final

def Call.Starts (call : Call) (command : Command) : Prop :=
  ∃ moment ∈ call.moments, moment.operation = .popen command

structure Call.Lawful (call : Call) : Prop where
  /-- A child of the same command was there before the call and still is. -/
  blocked : (∃ child < call.before.length, Existing call.after call.command child) →
    call.result = .ok stillBlocked ∧ ∀ command, ¬call.Starts command
  /-- Every child of the same command had exited before the call. -/
  fresh : (∀ child, Existing call.before call.command child → ¬Running call.before child) →
    call.Starts call.command

/-! ## Children only age -/

def Life.age : Life → Nat
  | .running => 0
  | .exited => 1
  | .collected => 2

theorem Life.age_eq_zero {life : Life} : life.age = 0 ↔ life = .running := by
  cases life <;> simp [Life.age]

theorem Life.age_collected {life : Life} (old : Life.collected.age ≤ life.age) :
    life = .collected := by
  cases life with
  | collected => rfl
  | running => exact absurd old (by decide)
  | exited => exact absurd old (by decide)

def Aged (world after : World) : Prop :=
  ∀ (child : Nat) (command : Command) (life : Life), world[child]? = some ⟨command, life⟩ →
    ∃ later, after[child]? = some ⟨command, later⟩ ∧ life.age ≤ later.age

section

variable {world middle after : World} {command : Command} {child other : Nat}

theorem Aged.refl (world : World) : Aged world world :=
  fun _ _ life known => ⟨life, known, le_rfl⟩

theorem Aged.trans (first : Aged world middle) (second : Aged middle after) :
    Aged world after := by
  intro child command life known
  rcases first child command life known with ⟨between, there, young⟩
  rcases second child command between there with ⟨later, here, old⟩
  exact ⟨later, here, young.trans old⟩

theorem Aged.length_le (aged : Aged world after) : world.length ≤ after.length := by
  by_contra shorter
  have inside : after.length < world.length := by omega
  rcases aged after.length world[after.length].command world[after.length].life
    (by rw [List.getElem?_eq_getElem inside]) with ⟨later, here, _⟩
  simp at here

/-- What exists later, among the children of before, existed before. -/
theorem Existing.of_aged (existing : Existing after command child) (aged : Aged world after)
    (old : child < world.length) : Existing world command child := by
  rcases existing with ⟨later, here, present⟩
  have known : world[child]? = some ⟨world[child].command, world[child].life⟩ :=
    List.getElem?_eq_getElem old
  rcases aged child _ _ known with ⟨life, there, older⟩
  rw [here, Option.some.injEq, Child.mk.injEq] at there
  rcases there with ⟨rfl, rfl⟩
  refine ⟨world[child].life, known, fun gone => present ?_⟩
  rw [gone] at older
  exact Life.age_collected older

theorem Running.of_aged (running : Running after child) (aged : Aged world after)
    (old : child < world.length) : Running world child := by
  rcases running with ⟨command, here⟩
  have known : world[child]? = some ⟨world[child].command, world[child].life⟩ :=
    List.getElem?_eq_getElem old
  rcases aged child _ _ known with ⟨life, there, older⟩
  rw [here, Option.some.injEq, Child.mk.injEq] at there
  rcases there with ⟨_, rfl⟩
  refine ⟨world[child].command, known.trans ?_⟩
  rw [Life.age_eq_zero.mpr rfl, Nat.le_zero, Life.age_eq_zero] at older
  rw [older]

theorem aged_meanwhile (meanwhile : List.Forall₂ Child.MayExit world middle) :
    Aged world middle := by
  intro child command life known
  induction meanwhile generalizing child with
  | nil => simp at known
  | cons head tail induction =>
      cases child with
      | zero =>
          rw [List.getElem?_cons_zero, Option.some.injEq] at known
          subst known
          cases head with
          | stays => exact ⟨life, rfl, le_rfl⟩
          | exits => exact ⟨.exited, rfl, by decide⟩
      | succ child => exact induction child known

@[simp] theorem collect_getElem? : (collect world child)[other]? =
    if child = other then world[other]?.map fun known => { known with life := .collected }
    else world[other]? := by
  rw [collect, List.getElem?_modify]
  split
  · rfl
  · simp

theorem aged_collect : Aged world (collect world child) := by
  intro other command life known
  rw [collect_getElem?, known]
  split
  · exact ⟨.collected, rfl, by cases life <;> decide⟩
  · exact ⟨life, rfl, le_rfl⟩

theorem aged_append (more : World) : Aged world (world ++ more) := by
  intro child command life known
  have inside : child < world.length := by
    by_contra outside
    rw [List.getElem?_eq_none (by omega)] at known
    cases known
  exact ⟨life, by rw [List.getElem?_append_left inside, known], le_rfl⟩

theorem aged_step {operation : Operation} {answer : Answer operation}
    (step : system.Step world operation answer after) : Aged world after := by
  rcases step with ⟨middle, meanwhile, acts⟩
  apply (aged_meanwhile meanwhile).trans
  cases operation with
  | poll child =>
      rw [Acts] at acts
      split at acts
      · exact acts.2 ▸ aged_collect
      · exact acts.2 ▸ .refl middle
  | popen command =>
      simp only [Acts] at acts
      split at acts
      · exact acts ▸ .refl middle
      · exact acts.2 ▸ aged_append _
  | communicate child timeout =>
      rw [Acts] at acts
      split at acts
      · exact acts ▸ .refl middle
      · exact acts.2 ▸ aged_collect
  | kill child =>
      rcases acts with same | ⟨_, collected⟩
      · exact same ▸ .refl middle
      · exact collected ▸ aged_collect
  | close child =>
      rw [Acts] at acts
      exact acts ▸ .refl middle

end

/-! ## What `PENDING` knows -/

/-- Every child that exists is in the table, at most one for each command. -/
structure Tracked (pending : Pending) (world : World) : Prop where
  known : ∀ entry ∈ pending, ∃ life, world[entry.2]? = some ⟨entry.1, life⟩
  tracked : ∀ command child, Existing world command child → (command, child) ∈ pending
  distinct : pending.keys.Nodup

namespace Tracked

variable {pending front rest : Pending} {world after : World} {command : Command}
  {child : Nat}

theorem atMostOne (tracked : Tracked pending world) : AtMostOne world := by
  intro command child other first second
  have same := List.inj_on_of_nodup_map tracked.distinct (tracked.tracked _ _ first)
    (tracked.tracked _ _ second) rfl
  exact congrArg Prod.snd same

/-- Ageing adds no child. -/
theorem aged (tracked : Tracked pending world) (aged : Aged world after)
    (same : after.length = world.length) : Tracked pending after where
  known := by
    intro entry member
    rcases tracked.known entry member with ⟨life, there⟩
    rcases aged _ _ _ there with ⟨later, here, _⟩
    exact ⟨later, here⟩
  tracked := by
    intro command child existing
    rcases existing with ⟨life, here, present⟩
    have inside : child < world.length := by
      by_contra outside
      rw [List.getElem?_eq_none (by omega)] at here
      cases here
    exact tracked.tracked _ _ (Existing.of_aged ⟨life, here, present⟩ aged inside)
  distinct := tracked.distinct

theorem meanwhile (tracked : Tracked pending world)
    (meanwhile : List.Forall₂ Child.MayExit world after) : Tracked pending after :=
  tracked.aged (aged_meanwhile meanwhile) (List.Forall₂.length_eq meanwhile).symm

theorem collect (tracked : Tracked pending world) :
    Tracked pending (collect world child) :=
  tracked.aged aged_collect (by simp [Children.collect])

/-- A child that was collected need not be in the table. -/
theorem drop (tracked : Tracked (front ++ (command, child) :: rest) world) :
    Tracked (front ++ rest) (Children.collect world child) where
  known := by
    intro entry member
    apply tracked.collect.known entry
    simp only [List.mem_append, List.mem_cons] at member ⊢
    tauto
  tracked := by
    intro other sibling existing
    have member := tracked.collect.tracked _ _ existing
    rcases existing with ⟨life, here, present⟩
    rw [collect_getElem?] at here
    have different : child ≠ sibling := by
      intro same
      rw [if_pos same] at here
      rcases Option.map_eq_some_iff.mp here with ⟨known, _, equal⟩
      exact present (congrArg Child.life equal).symm
    simp only [List.mem_append, List.mem_cons, Prod.mk.injEq] at member ⊢
    rcases member with member | ⟨_, same⟩ | member
    · exact .inl member
    · exact absurd same.symm different
    · exact .inr member
  distinct := by
    refine List.Nodup.sublist ?_ tracked.distinct
    exact List.Sublist.map _ (List.Sublist.append_left (List.sublist_cons_self _ _) _)

/-- A child that is started goes into the table. -/
theorem add (tracked : Tracked pending world) (absent : command ∉ pending.keys) :
    Tracked (pending ++ [(command, world.length)]) (world ++ [⟨command, .running⟩]) where
  known := by
    intro entry member
    rw [List.mem_append, List.mem_singleton] at member
    rcases member with member | rfl
    · rcases tracked.known entry member with ⟨life, there⟩
      rcases aged_append [⟨command, .running⟩] _ _ _ there with ⟨later, here, _⟩
      exact ⟨later, here⟩
    · exact ⟨.running, by simp⟩
  tracked := by
    intro other child existing
    rw [List.mem_append, List.mem_singleton]
    rcases existing with ⟨life, here, present⟩
    by_cases inside : child < world.length
    · rw [List.getElem?_append_left inside] at here
      exact .inl (tracked.tracked _ _ ⟨life, here, present⟩)
    · rw [List.getElem?_append_right (by omega), List.getElem?_singleton] at here
      split at here
      · rw [Option.some.injEq, Child.mk.injEq] at here
        have last : child = world.length := by omega
        exact .inr (Prod.ext here.1.symm last)
      · cases here
  distinct := by
    rw [Pending.keys, List.map_append, List.nodup_append]
    refine ⟨tracked.distinct, by simp, ?_⟩
    intro key member last single equal
    rw [List.map_singleton, List.mem_singleton] at single
    have same : key = command := equal.trans single
    exact absent (same ▸ member)

end Tracked

/-! ## What a call does -/

def Polls (past : Past interface World) : Prop :=
  ∀ moment ∈ past, ∃ child, moment.operation = .poll child

section

variable {α : Type} {start world : World} {past : Past interface World}
  {pending front rest : Pending} {command : Command} {timeout : ℚ} {child : Nat}
  {good : Past interface World → Moment interface World → Prop}
  {post : Past interface World → World → α → Prop}

theorem ask_bind_iff {operation : Operation} {next : Answer operation → Program interface α} :
    Guarded system good post (ask operation >>= next) past world ↔
      ∀ answer after, system.Step world operation answer after →
        good past ⟨world, operation, answer, after⟩ ∧
          Guarded system good post (next answer)
            (⟨world, operation, answer, after⟩ :: past) after := Iff.rfl

/-- The loop keeps what still runs, and starts nothing. -/
theorem reap_guarded (tracked : Tracked (front ++ rest) world) (aged : Aged start world)
    (old : ∀ entry ∈ rest, entry.2 < start.length) (polls : Polls past) :
    Guarded system (fun _ moment => AtMostOne moment.after)
      (fun past world left => Tracked (front ++ left) world ∧ Aged start world ∧
        (∀ entry ∈ left, entry ∈ rest ∧ Running start entry.2) ∧ Polls past)
      (reap rest) past world := by
  induction rest generalizing front world past with
  | nil => exact ⟨tracked, aged, by simp, polls⟩
  | cons entry rest induction =>
      rcases entry with ⟨key, child⟩
      have oldRest : ∀ entry ∈ rest, entry.2 < start.length :=
        fun entry member => old entry (List.mem_cons_of_mem _ member)
      apply ask_bind_iff.mpr
      intro exited after step
      have agedAfter := aged.trans (aged_step step)
      have polled : Polls (⟨world, .poll child, exited, after⟩ :: past) := by
        intro moment member
        rcases List.mem_cons.mp member with rfl | member
        · exact ⟨child, rfl⟩
        · exact polls moment member
      rcases step with ⟨middle, meanwhile, acts⟩
      have between := tracked.meanwhile meanwhile
      change Bool at exited
      cases exited with
      | true =>
          have dropped : Tracked (front ++ rest) after := by
            rw [Acts, if_pos rfl] at acts
            exact acts.2 ▸ between.drop
          refine ⟨dropped.atMostOne, ?_⟩
          refine (induction dropped agedAfter oldRest polled).bind ?_
          intro past world left known
          refine ⟨known.1, known.2.1, ?_, known.2.2.2⟩
          intro entry member
          have now := known.2.2.1 entry member
          exact ⟨List.mem_cons_of_mem _ now.1, now.2⟩
      | false =>
          rw [Acts, if_neg Bool.false_ne_true] at acts
          rcases acts with ⟨running, rfl⟩
          have kept : Tracked ((front ++ [(key, child)]) ++ rest) after := by
            simpa using between
          have ran : Running start child :=
            running.of_aged agedAfter (old (key, child) List.mem_cons_self)
          refine ⟨between.atMostOne, ?_⟩
          refine (induction kept agedAfter oldRest polled).bind ?_
          intro past world left known
          refine ⟨by simpa using known.1, known.2.1, ?_, known.2.2.2⟩
          intro entry member
          rcases List.mem_cons.mp member with rfl | member
          · exact ⟨List.mem_cons_self, ran⟩
          · have now := known.2.2.1 entry member
            exact ⟨List.mem_cons_of_mem _ now.1, now.2⟩

theorem communicate_tracked {talk : Talk} {after : World}
    (tracked : Tracked (pending ++ [(command, child)]) world)
    (step : system.Step world (.communicate child timeout) talk after) :
    Tracked (if talk = .expired then pending ++ [(command, child)] else pending) after := by
  rcases step with ⟨middle, meanwhile, acts⟩
  have between := tracked.meanwhile meanwhile
  rw [Acts] at acts
  split at acts
  · rename_i expired
    rw [if_pos expired]
    exact acts ▸ between
  · rename_i late
    rw [if_neg late, acts.2]
    simpa using between.drop

theorem kill_tracked {answer : Unit} {after : World} (tracked : Tracked pending world)
    (step : system.Step world (.kill child) answer after) : Tracked pending after := by
  rcases step with ⟨middle, meanwhile, acts⟩
  have between := tracked.meanwhile meanwhile
  rcases acts with same | ⟨_, collected⟩
  · exact same ▸ between
  · exact collected ▸ between.collect

theorem close_tracked {answer : Unit} {after : World} (tracked : Tracked pending world)
    (step : system.Step world (.close child) answer after) : Tracked pending after := by
  rcases step with ⟨middle, meanwhile, acts⟩
  rw [Acts] at acts
  exact acts ▸ tracked.meanwhile meanwhile

theorem abandon_guarded (tracked : Tracked (pending ++ [(command, child)]) world) :
    Guarded system (fun _ moment => AtMostOne moment.after)
      (fun _ world called => Tracked called.1 world) (abandon pending command child)
      past world := by
  apply ask_bind_iff.mpr
  intro killed world₁ step₁
  have tracked₁ := kill_tracked tracked step₁
  refine ⟨tracked₁.atMostOne, ask_bind_iff.mpr ?_⟩
  intro talk world₂ step₂
  have tracked₂ := communicate_tracked tracked₁ step₂
  refine ⟨tracked₂.atMostOne, ?_⟩
  change Talk at talk
  cases talk with
  | ended completed => exact tracked₂
  | undecodable => exact tracked₂
  | expired =>
      apply ask_bind_iff.mpr
      intro closed world₃ step₃
      have tracked₃ := close_tracked tracked₂ step₃
      exact ⟨tracked₃.atMostOne, tracked₃⟩

theorem attend_guarded (tracked : Tracked (pending ++ [(command, child)]) world) :
    Guarded system (fun _ moment => AtMostOne moment.after)
      (fun _ world called => Tracked called.1 world) (attend pending command timeout child)
      past world := by
  apply ask_bind_iff.mpr
  intro talk after step
  have trackedAfter := communicate_tracked tracked step
  refine ⟨trackedAfter.atMostOne, ?_⟩
  change Talk at talk
  cases talk with
  | ended completed => exact trackedAfter
  | undecodable => exact trackedAfter
  | expired => exact abandon_guarded trackedAfter

/-- A child is started where none of the same command exists. -/
theorem spawn_guarded (tracked : Tracked pending world) (absent : command ∉ pending.keys) :
    Guarded system (fun _ moment => AtMostOne moment.after)
      (fun past world called => Tracked called.1 world ∧
        ∃ moment ∈ past, moment.operation = .popen command)
      (spawn pending command timeout) past world := by
  apply ask_bind_iff.mpr
  intro started after step
  rcases step with ⟨middle, meanwhile, acts⟩
  have between := tracked.meanwhile meanwhile
  change Except String Nat at started
  cases started with
  | error message =>
      simp only [Acts] at acts
      subst acts
      exact ⟨between.atMostOne, between, _, List.mem_cons_self, rfl⟩
  | ok child =>
      simp only [Acts] at acts
      rcases acts with ⟨rfl, rfl⟩
      have added := between.add absent
      refine ⟨added.atMostOne, ?_⟩
      apply ((attend_guarded added).grows List.suffix_rfl).mono
      · exact fun _ _ known => known.2
      · intro past world called known
        exact ⟨known.2, _, known.1.subset List.mem_cons_self, rfl⟩

theorem aged_executes {program : Program interface α} {after : World}
    {moments : List (Moment interface World)} {outcome : Option α}
    (execution : Executes system program world moments after outcome) :
    Aged world after := by
  induction execution with
  | killed => exact .refl _
  | done => exact .refl _
  | call step rest induction => exact (aged_step step).trans induction

structure Heeds (start : World) (command : Command) (past : Past interface World)
    (world : World) (result : Except Exception Completed) : Prop where
  blocked : (∃ child < start.length, Existing world command child) →
    result = .ok stillBlocked ∧ Polls past
  fresh : (∀ child, Existing start command child → ¬Running start child) →
    ∃ moment ∈ past, moment.operation = .popen command

theorem run_guarded (tracked : Tracked pending start) :
    Guarded system (fun _ moment => AtMostOne moment.after)
      (fun past world called => Tracked called.1 world ∧
        Heeds start command past world called.2)
      (run pending command timeout) [] start := by
  have old : ∀ entry ∈ pending, entry.2 < start.length := by
    intro entry member
    rcases tracked.known entry member with ⟨life, known⟩
    exact (List.getElem?_eq_some_iff.mp known).1
  have whole : Tracked ([] ++ pending) start := tracked
  have silent : Polls [] := by simp [Polls]
  refine (reap_guarded whole (.refl start) old silent).bind ?_
  rintro past world left ⟨tracked₁, aged, running, polls⟩
  by_cases blocked : command ∈ left.keys
  · rw [if_pos blocked]
    refine ⟨tracked₁, fun _ => ⟨rfl, polls⟩, fun exited => ?_⟩
    rcases List.mem_map.mp blocked with ⟨entry, member, rfl⟩
    have ran := running entry member
    rcases tracked.known entry ran.1 with ⟨life, known⟩
    rcases ran.2 with ⟨command, alive⟩
    have same := known.symm.trans alive
    rw [Option.some.injEq, Child.mk.injEq] at same
    rcases same with ⟨rfl, rfl⟩
    exact absurd ran.2 (exited entry.2 ⟨.running, known, by decide⟩)
  · rw [if_neg blocked]
    apply (spawn_guarded tracked₁ blocked).recorded.post_mono
    rintro past' world' called ⟨⟨tracked₂, started⟩, moments, rfl, execution⟩
    refine ⟨tracked₂, ?_, fun _ => started⟩
    rintro ⟨child, inside, existing⟩
    have there := existing.of_aged (aged_executes execution)
      (inside.trans_le aged.length_le)
    exact absurd (List.mem_map_of_mem (tracked₁.tracked _ _ there)) blocked

end

/-! ## What all calls do -/

theorem session_tracked {calls : List Call} {pending : Pending} {world : World}
    (session : Session calls pending world) :
    Tracked pending world ∧ ∀ call ∈ calls, call.Lawful := by
  induction session with
  | start =>
      refine ⟨⟨by simp, ?_, List.nodup_nil⟩, by simp⟩
      rintro command child ⟨life, here, _⟩
      simp at here
  | next earlier command timeout execution induction =>
      rcases induction with ⟨tracked, lawful⟩
      rcases (run_guarded tracked).result execution with ⟨trackedAfter, heeds⟩
      refine ⟨trackedAfter, ?_⟩
      intro call member
      rw [List.mem_append, List.mem_singleton] at member
      rcases member with member | rfl
      · exact lawful call member
      · constructor
        · intro exists_
          rcases heeds.blocked exists_ with ⟨result, polls⟩
          refine ⟨result, ?_⟩
          rintro command ⟨moment, member, popen⟩
          rcases polls moment (by simpa using member) with ⟨child, poll⟩
          cases popen.symm.trans poll
        · intro exited
          rcases heeds.fresh exited with ⟨moment, member, popen⟩
          exact ⟨moment, by simpa using member, popen⟩

/-- At no moment of any sequence of calls are there two children of one command. A call
whose previous child still exists starts nothing and returns 124, and one whose previous
child has exited starts a new one. -/
theorem no_piled_up_children {calls : List Call} {pending : Pending} {world : World}
    (session : Session calls pending world) :
    AtMostOne world ∧
    (∀ command timeout moments final outcome,
      Executes system (run pending command timeout) world moments final outcome →
        ∀ moment ∈ moments, AtMostOne moment.after) ∧
    ∀ call ∈ calls, call.Lawful := by
  rcases session_tracked session with ⟨tracked, lawful⟩
  refine ⟨tracked.atMostOne, ?_, lawful⟩
  intro command timeout moments final outcome execution moment member
  rcases List.append_of_mem member with ⟨earlier, later, split⟩
  exact (run_guarded tracked).moment_good execution split

theorem acts_step {world after : World} {operation : Operation} {answer : Answer operation}
    (acts : Acts world operation answer after) : system.Step world operation answer after :=
  ⟨world, List.forall₂_same.mpr fun child _ => .stays child, acts⟩

/-- A child that survives the kill blocks the next call of its command. -/
theorem exists_blockedSession (command : Command) :
    ∃ first second, Session [first, second] [(command, 0)] [⟨command, .running⟩] ∧
      first.command = command ∧ first.before = [] ∧ second.command = command ∧
      second.before = [⟨command, .running⟩] ∧ second.after = [⟨command, .running⟩] := by
  have started : system.Step [] (.popen command) (.ok 0) [⟨command, .running⟩] :=
    acts_step ⟨rfl, rfl⟩
  have expired (timeout : ℚ) : system.Step [⟨command, .running⟩] (.communicate 0 timeout)
      Talk.expired [⟨command, .running⟩] :=
    acts_step (by rw [Acts, if_pos rfl])
  have killed : system.Step [⟨command, .running⟩] (.kill 0) () [⟨command, .running⟩] :=
    acts_step (.inl rfl)
  have closed : system.Step [⟨command, .running⟩] (.close 0) () [⟨command, .running⟩] :=
    acts_step rfl
  have polled : system.Step [⟨command, .running⟩] (.poll 0) false [⟨command, .running⟩] :=
    acts_step ⟨⟨command, rfl⟩, rfl⟩
  have first := Session.start.next command 10 (.call started (.call (expired 10)
    (.call killed (.call (expired (1 / 2)) (.call closed (.done _ _))))))
  have blocked : command ∈ Pending.keys [(command, 0)] := List.mem_singleton_self command
  have second : Executes system (run [(command, 0)] command 10) [⟨command, .running⟩]
      [⟨[⟨command, .running⟩], .poll 0, false, [⟨command, .running⟩]⟩] [⟨command, .running⟩]
      (some ([(command, 0)], .ok stillBlocked)) := by
    refine .call polled ?_
    change Executes system (if command ∈ Pending.keys [(command, 0)] then _ else _) _ _ _ _
    rw [if_pos blocked]
    exact .done _ _
  exact ⟨_, _, first.next command 10 second, rfl, rfl, rfl, rfl, rfl⟩

def mountCommand : Command := ["/sbin/mount"]

/-- A session in which the child of one call blocks the next. -/
theorem no_piled_up_children_blocked : ∃ first second,
    Session [first, second] [(mountCommand, 0)] [⟨mountCommand, .running⟩] ∧
      AtMostOne [⟨mountCommand, .running⟩] ∧
      (∀ timeout moments final outcome,
        Executes system (run [(mountCommand, 0)] mountCommand timeout) [⟨mountCommand, .running⟩]
          moments final outcome → ∀ moment ∈ moments, AtMostOne moment.after) ∧
      first.Starts mountCommand ∧
      second.result = .ok stillBlocked ∧ ∀ command, ¬second.Starts command := by
  rcases exists_blockedSession mountCommand with
    ⟨first, second, session, firstIs, empty, secondIs, before, after⟩
  have laws := no_piled_up_children session
  have fresh : ∀ child, Existing first.before first.command child →
      ¬Running first.before child := by
    intro child existing
    rcases existing with ⟨life, here, _⟩
    rw [empty] at here
    cases here
  have child : ∃ child < second.before.length, Existing second.after second.command child := by
    rw [before, after, secondIs]
    exact ⟨0, by decide, .running, rfl, by decide⟩
  have starts := (laws.2.2 first (by simp)).fresh fresh
  rw [firstIs] at starts
  exact ⟨first, second, session, laws.1, laws.2.1 mountCommand, starts,
    (laws.2.2 second (by simp)).blocked child⟩

/-! ## The supervisor's own model

There a child is launched in one operation, and `PENDING` is a part of the world.
-/

section

variable {world final : World} {moments : List (Moment interface World)}
  {front rest pending left after : Pending} {command : Command}
  {coarse : NfsMount.World} {result : Except Exception Completed}

theorem pending_step (coarse : NfsMount.World) :
    NfsMount.system.Step coarse .pending coarse.pending coarse :=
  ⟨⟨rfl, rfl⟩, le_rfl, .same id id rfl⟩

theorem launch_step (coarse : NfsMount.World) (command : Command) (timeout : Nat)
    (launched : Launched) :
    ∃ later, NfsMount.system.Step coarse (.launch command timeout) launched later ∧
      later.pending = coarse.pending :=
  ⟨_, host_permitted (fun _ => launched) [] coarse (.launch command timeout), rfl⟩

theorem reap_refines (distinct : (front ++ rest).keys.Nodup)
    (same : coarse.pending = (front ++ rest).keys)
    (execution : Executes system (reap rest) world moments final (some left)) :
    ∃ moments' coarse', Executes NfsMount.system (NfsMount.reap rest.keys).run coarse
      moments' coarse' (some (.ok ())) ∧ coarse'.pending = (front ++ left).keys := by
  induction rest generalizing front world final moments left coarse with
  | nil =>
      rcases execution.done_inv with ⟨_, _, ended⟩
      have nothing : left = [] := by simpa using ended
      exact ⟨[], coarse, .done _ _, by rw [nothing, same]⟩
  | cons entry rest induction =>
      rcases entry with ⟨key, child⟩
      cases execution with
      | @call _ _ _ exited _ _ _ _ step later =>
          change Bool at exited
          change Executes system (reap rest >>= fun others =>
            .done (if exited = true then others else (key, child) :: others)) _ _ _ _ at later
          rcases later.bind_some_inv with ⟨_, _, others, _, reaped, ended, _⟩
          have leftIs : left = if exited = true then others else (key, child) :: others := by
            simpa using ended.done_inv.2.2
          cases exited with
          | true =>
              have absent : key ∉ front.keys := by
                simp only [Pending.keys, List.map_append, List.map_cons] at distinct
                exact fun member =>
                  (List.nodup_append.mp distinct).2.2 key member key (by simp) rfl
              have erased : coarse.pending.erase key = (front ++ rest).keys := by
                simp only [Pending.keys, List.map_append, List.map_cons] at same absent ⊢
                rw [same, List.erase_append_right _ absent, List.erase_cons_head]
              have shorter : (front ++ rest).keys.Nodup := by
                rw [← erased, same]
                exact distinct.erase key
              have forgets : NfsMount.system.Step coarse (.forget key) ()
                  { coarse with pending := coarse.pending.erase key } :=
                ⟨rfl, le_rfl, .same id id rfl⟩
              have polls : NfsMount.system.Step coarse (.poll key) true coarse :=
                ⟨rfl, le_rfl, .same id id rfl⟩
              have emptied : (NfsMount.World.mk coarse.clock (coarse.pending.erase key)
                  coarse.worker).pending = (front ++ rest).keys := erased
              rcases induction shorter emptied reaped with ⟨moments', coarse', rest', same'⟩
              exact ⟨_, coarse', .call polls (.call forgets rest'), leftIs ▸ same'⟩
          | false =>
              have polls : NfsMount.system.Step coarse (.poll key) false coarse :=
                ⟨rfl, le_rfl, .same id id rfl⟩
              have longer : ((front ++ [(key, child)]) ++ rest).keys.Nodup := by
                simpa using distinct
              rcases induction longer (by simpa using same) reaped with
                ⟨moments', coarse', rest', same'⟩
              refine ⟨_, coarse', .call polls rest', ?_⟩
              rw [same', leftIs]
              simp

/-- What the launch of the supervisor's model answers for what became of a child. -/
inductive Launches (pending : Pending) (command : Command) :
    Pending → Except Exception Completed → Launched → Prop
  | refused (message : String) :
      Launches pending command pending (.ok ⟨127, "", message⟩) (.refused message)
  | finished (completed : Completed) :
      Launches pending command pending (.ok completed) (.finished completed)
  | undecodable :
      Launches pending command pending (.error .unicodeDecodeError) .undecodable
  | died : Launches pending command pending (.ok timedOut) (.expired false)
  | survives (child : Nat) :
      Launches pending command (pending ++ [(command, child)]) (.ok timedOut) (.expired true)

theorem spawn_launches {timeout : ℚ}
    (execution : Executes system (spawn pending command timeout) world moments final
      (some (after, result))) :
    ∃ launched, Launches pending command after result launched := by
  cases execution with
  | @call _ _ _ started _ _ _ _ _ later =>
      change Except String Nat at started
      cases started with
      | error message =>
          cases later
          exact ⟨_, .refused message⟩
      | ok child =>
          cases later with
          | @call _ _ _ talk _ _ _ _ _ later =>
              change Talk at talk
              cases talk with
              | ended completed =>
                  cases later
                  exact ⟨_, .finished completed⟩
              | undecodable =>
                  cases later
                  exact ⟨_, .undecodable⟩
              | expired =>
                  cases later with
                  | call _ later =>
                      cases later with
                      | @call _ _ _ talk _ _ _ _ _ later =>
                          change Talk at talk
                          cases talk with
                          | ended completed =>
                              cases later
                              exact ⟨_, .died⟩
                          | undecodable =>
                              cases later
                              exact ⟨_, .undecodable⟩
                          | expired =>
                              cases later with
                              | call _ later =>
                                  cases later
                                  exact ⟨_, .survives child⟩

theorem spawn_refines {launched : Launched} (timeout : Nat)
    (same : coarse.pending = pending.keys)
    (launches : Launches pending command after result launched) :
    ∃ moments' coarse', Executes NfsMount.system (NfsMount.spawn command timeout).run coarse
      moments' coarse' (some result) ∧ coarse'.pending = after.keys := by
  rcases launch_step coarse command timeout launched with ⟨later, step, kept⟩
  cases launches with
  | refused message => exact ⟨_, later, .call step (.done _ _), kept.trans same⟩
  | finished completed => exact ⟨_, later, .call step (.done _ _), kept.trans same⟩
  | undecodable => exact ⟨_, later, .call step (.done _ _), kept.trans same⟩
  | died => exact ⟨_, later, .call step (.done _ _), kept.trans same⟩
  | survives child =>
      have remembers : NfsMount.system.Step later (.remember command) ()
          { later with pending := later.pending ++ [command] } :=
        ⟨rfl, le_rfl, .same id id rfl⟩
      refine ⟨_, _, .call step (.call remembers (.done _ _)), ?_⟩
      rw [kept, same, Pending.keys, Pending.keys, List.map_append, List.map_singleton]

/-- A call of `run` is a call of the model that launches a child in one operation. -/
theorem run_refines {timeout : Nat} (distinct : pending.keys.Nodup)
    (same : coarse.pending = pending.keys)
    (execution : Executes system (run pending command timeout) world moments final
      (some (after, result))) :
    ∃ moments' coarse', Executes NfsMount.system (NfsMount.run command timeout).run coarse
      moments' coarse' (some result) ∧ coarse'.pending = after.keys := by
  have whole : (Pending.keys ([] ++ pending)).Nodup := distinct
  rcases execution.bind_some_inv with ⟨_, _, left, _, reaped, later, _⟩
  rcases reap_refines whole same reaped with ⟨moments', coarse', reaped', same'⟩
  change coarse'.pending = left.keys at same'
  have looks := pending_step coarse
  have looksAgain := pending_step coarse'
  rw [same] at looks
  rw [same'] at looksAgain
  suffices rest : ∃ more coarse'', Executes NfsMount.system
      (if command ∈ left.keys then pure stillBlocked
        else NfsMount.spawn command timeout : Py Completed).run coarse' more coarse''
        (some result) ∧ coarse''.pending = after.keys by
    rcases rest with ⟨more, coarse'', rest, ends⟩
    exact ⟨_, coarse'', .call looks (Attempt.executes_bind reaped' (.call looksAgain rest)),
      ends⟩
  by_cases blocked : command ∈ left.keys
  · rw [if_pos blocked] at later ⊢
    have ended : (after, result) = (left, .ok stillBlocked) := by
      simpa using later.done_inv.2.2
    rw [Prod.mk.injEq] at ended
    exact ⟨[], coarse', ended.2 ▸ .done _ _, ended.1 ▸ same'⟩
  · rw [if_neg blocked] at later ⊢
    rcases spawn_launches later with ⟨launched, launches⟩
    exact spawn_refines timeout same' launches

end

end Homelab.NfsMount.Children
