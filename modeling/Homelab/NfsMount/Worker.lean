import Homelab.NfsMount.Host

/-! # What becomes of the worker

The supervisor stops the worker before it recovers the main share, and has to load
it again on every way out.
-/

namespace Homelab.NfsMount

open Effects Text

/-- The worker was stopped, and no command to load it was launched since. -/
def Owed : Past interface World → Prop
  | [] => False
  | moment :: past =>
      Bootout moment.operation ∨ ¬Bootstrap moment.operation ∧ Owed past

/-- The child was still blocked when the program gave up on it. -/
def leftBlocked : (operation : Operation) → Answer operation → Bool
  | .launch _ _, .expired blocked => blocked
  | _, _ => false

/-- A command that stops the worker reports its success, and one that loads it loads
it and does not stay blocked. -/
structure Honest (moment : Moment interface World) : Prop where
  stops : Bootout moment.operation → succeeded moment.operation moment.answer = true
  loads : Bootstrap moment.operation → moment.after.worker = .loaded ∧
    leftBlocked moment.operation moment.answer = false

/-! ## Commands that leave the worker alone -/

def Other (command : Command) : Prop :=
  isBootout command = false ∧ isBootstrap command = false

def Tame : Operation → Prop
  | .launch command _ => Other command
  | .remember command => Other command
  | _ => True

theorem other_of_head {command : Command} {head : String}
    (first : command.head? = some head) (different : head ≠ "/bin/launchctl") :
    Other command := by
  constructor
  · apply Bool.eq_false_iff.mpr
    intro out
    rcases isBootout_iff.mp out with ⟨label, rfl⟩
    exact different (Option.some.inj first).symm
  · apply Bool.eq_false_iff.mpr
    intro strap
    rcases isBootstrap_iff.mp strap with ⟨domain, _, rfl⟩
    exact different (Option.some.inj first).symm

theorem other_launchctlPrint (label : String) : Other (launchctlPrint label) := by
  simp [Other, isBootout, isBootstrap, launchctlPrint, bootout, bootstrap]

/-- The third word of a probe or of a publication is no launchd domain. -/
theorem other_own {cfg : Config} {option path : String}
    (noDomain : startsWith "gui/" option = false) :
    Other [cfg.python, cfg.script, option, path] := by
  constructor
  · simp [isBootout, bootout]
  · simp [isBootstrap, noDomain]

theorem uses_tame {operation : Operation} (uses : Uses Other operation) :
    Tame operation := by
  cases operation with
  | launch command timeout => exact uses
  | remember command => exact uses
  | _ => trivial

def Unblocked (world : World) : Prop :=
  ∀ command ∈ world.pending, isBootstrap command = false

structure Settled (past : Past interface World) (world : World) : Prop where
  unblocked : Unblocked world
  notStopped : world.worker ≠ .stopped
  notOwed : ¬Owed past

/-- What holds while the worker of this domain is stopped. -/
structure Holding (domain : String) (past : Past interface World) (world : World) :
    Prop where
  unblocked : Unblocked world
  settled : domain = "" → Settled past world

section

variable {past : Past interface World} {world after : World}

theorem unblocked_step {operation : Operation} {answer : Answer operation}
    (unblocked : Unblocked world) (tame : ∀ key, operation = .remember key →
      isBootstrap key = false)
    (step : system.Step world operation answer after) : Unblocked after := by
  have keeping := step.keeping
  intro command member
  cases operation with
  | pending => exact unblocked command (keeping.2 ▸ member)
  | forget key =>
      have kept : after.pending = world.pending.erase key := keeping
      rw [kept] at member
      exact unblocked command (List.mem_of_mem_erase member)
  | remember key =>
      have kept : after.pending = world.pending ++ [key] := keeping
      rw [kept, List.mem_append, List.mem_singleton] at member
      rcases member with member | rfl
      · exact unblocked command member
      · exact tame command rfl
  | _ =>
      have kept : after.pending = world.pending := keeping
      exact unblocked command (kept ▸ member)

theorem Tame.not_bootout {operation : Operation} (tame : Tame operation) :
    ¬Bootout operation := by
  cases operation with
  | launch command timeout =>
      rw [bootout_launch, tame.1]
      exact Bool.false_ne_true
  | _ => exact id

theorem Tame.unblocked {operation : Operation} {answer : Answer operation}
    (tame : Tame operation) (unblocked : Unblocked world)
    (step : system.Step world operation answer after) : Unblocked after := by
  apply unblocked_step unblocked _ step
  rintro key rfl
  exact tame.2

theorem Tame.settled {operation : Operation} {answer : Answer operation}
    (tame : Tame operation) (settled : Settled past world)
    (step : system.Step world operation answer after) :
    Settled (⟨world, operation, answer, after⟩ :: past) after := by
  refine ⟨tame.unblocked settled.unblocked step, fun stopped => ?_, ?_⟩
  · rcases step.working.stopped stopped with before | ⟨_, out⟩
    · exact settled.notStopped before
    · exact tame.not_bootout out
  · rintro (out | ⟨_, owed⟩)
    · exact tame.not_bootout out
    · exact settled.notOwed owed

abbrev honestSystem : System interface World := system.restrict Honest

theorem tame_settled : Keeps honestSystem Tame (fun _ _ => True) Settled :=
  fun _ _ _ _ _ tame step settled => ⟨trivial, tame.settled settled step.1⟩

theorem tame_holding {domain : String} :
    Keeps honestSystem Tame (fun _ _ => True) (Holding domain) := by
  intro past world operation answer after tame step holding
  exact ⟨trivial, tame.unblocked holding.unblocked step.1,
    fun none => tame.settled (holding.settled none) step.1⟩

theorem tame_unblocked :
    Keeps honestSystem Tame (fun _ _ => True) (fun _ world => Unblocked world) :=
  fun _ _ _ _ _ tame step unblocked => ⟨trivial, tame.unblocked unblocked step.1⟩

/-! ## Stopping and loading -/

abbrev Keeper {α : Type} (post : Past interface World → World → α → Prop)
    (attempt : Py α) (past : Past interface World) (world : World) : Prop :=
  Attempt.Guarded honestSystem (fun _ _ => True) post
    (fun past world _ => Settled past world) attempt past world

theorem tame_silent {inv : Past interface World → World → Prop}
    (keeps : Keeps honestSystem Tame (fun _ _ => True) inv) :
    Keeps honestSystem (Uses fun _ => False) (fun _ _ => True) inv :=
  fun _ _ _ _ _ uses step holds =>
    keeps _ _ _ _ _ (uses_tame (uses.mono fun _ => False.elim)) step holds

/-- If the worker is still stopped afterwards, the command ended with status 0. -/
theorem runBootout {label : String} {timeout : Nat} (settled : Settled past world) :
    Keeper (fun past world result => Unblocked world ∧
        (result.returncode ≠ 0 → Settled past world))
      (run (bootout label) timeout) past world := by
  apply run_rule (Uses.covers _) (tame_silent tame_settled) settled
  intro past₁ before keys world₁ _ _ settled₁
  split
  · exact ⟨settled₁.unblocked, fun _ => settled₁⟩
  · apply ask_bind.mpr
    intro launched world₂ step₂
    have ended : succeeded (.launch (bootout label) timeout) launched = true :=
      step₂.2.stops ⟨label, rfl⟩
    have unblocked :=
      unblocked_step settled₁.unblocked (fun _ impossible => by cases impossible) step₂.1
    refine ⟨trivial, ?_⟩
    change Launched at launched
    cases launched with
    | finished completed =>
        have zero : completed.returncode = 0 := by
          simpa [succeeded, Launched.succeeded] using ended
        exact ⟨unblocked, fun failed => absurd zero failed⟩
    | _ => cases ended

/-- Loading the worker settles what is owed, however the command ends. -/
theorem runBootstrap {domain : String} {timeout : Nat}
    (gui : startsWith "gui/" domain = true) (unblocked : Unblocked world) :
    Keeper (fun past world _ => Settled past world) (run (bootstrap domain) timeout) past
      world := by
  have straps : isBootstrap (bootstrap domain) = true :=
    isBootstrap_iff.mpr ⟨domain, gui, rfl⟩
  apply run_rule (Uses.covers _) (tame_silent tame_unblocked) unblocked
  intro past₁ before keys world₁ step₁ unblocked₀ unblocked₁
  have same : keys = before.pending := step₁.1.keeping.1
  have absent : bootstrap domain ∉ keys := by
    intro member
    rw [unblocked₀ _ (same ▸ member)] at straps
    cases straps
  rw [if_neg absent]
  apply ask_bind.mpr
  intro launched world₂ step₂
  have launches : Bootstrap (.launch (bootstrap domain) timeout) :=
    bootstrap_launch.mpr straps
  have loads := step₂.2.loads launches
  have settled : Settled
      (⟨world₁, .launch (bootstrap domain) timeout, launched, world₂⟩ ::
        ⟨before, .pending, keys, world₁⟩ :: past₁) world₂ := by
    refine ⟨unblocked_step unblocked₁ (fun _ impossible => by cases impossible) step₂.1, ?_, ?_⟩
    · rw [loads.1]
      exact nofun
    · rintro (⟨label, impossible⟩ | ⟨notLaunched, _⟩)
      · simp [bootstrap, bootout] at impossible
      · exact notLaunched launches
  refine ⟨trivial, ?_⟩
  change Launched at launched
  rcases launched with message | completed | blocked | _
  · exact settled
  · exact settled
  · cases blocked with
    | false => exact settled
    | true => cases loads.2
  · exact settled

/-! ## The parts of a pass -/

theorem keeper_of_within {α : Type} {attempt : Py α} (within : attempt.Within (Uses Other))
    (settled : Settled past world) :
    Keeper (fun past world _ => Settled past world) attempt past world :=
  (within.mono fun _ => uses_tame).guarded tame_settled settled

/-- A domain that is not empty is one in which a worker can be loaded. -/
structure Held (domain : String) (past : Past interface World) (world : World) :
    Prop where
  holding : Holding domain past world
  gui : domain ≠ "" → startsWith "gui/" domain = true

theorem startsWith_gui (uid : Nat) : startsWith "gui/" ("gui/" ++ toString uid) = true := by
  rw [startsWith, String.toList_append]
  exact List.isPrefixOf_iff_prefix.mpr (List.prefix_append _ _)

theorem stopWorker_keeper (settled : Settled past world) :
    Keeper (fun past world result => match result with
        | none => Settled past world
        | some domain => Held domain past world) stopWorker past world := by
  apply ask_bind.mpr
  intro user world₁ step₁
  have settled₁ := (tame_settled _ _ _ _ _ (by trivial) step₁ settled).2
  refine ⟨trivial, ?_⟩
  change Option Nat at user
  cases user with
  | none => exact settled₁
  | some uid =>
      apply Attempt.bind (keeper_of_within (run_within (other_launchctlPrint _)) settled₁)
      intro past₂ world₂ loaded settled₂
      split
      · apply ask_bind.mpr
        intro found world₃ step₃
        have settled₃ := (tame_settled _ _ _ _ _ (by trivial) step₃ settled₂).2
        refine ⟨trivial, ?_⟩
        change Option Bool at found
        rcases found with _ | _ | _
        · exact settled₃
        · exact settled₃
        · apply Attempt.bind (runBootout settled₃)
          rintro past₄ world₄ stopped ⟨unblocked, failed⟩
          split
          · next nonzero => exact failed nonzero
          · refine ⟨⟨unblocked, fun impossible => ?_⟩, fun _ => startsWith_gui uid⟩
            simp at impossible
      · split
        · exact ⟨⟨settled₂.unblocked, fun _ => settled₂⟩, fun impossible =>
            absurd rfl impossible⟩
        · exact settled₂

theorem stopFor_keeper {target : String} {action : Action} (settled : Settled past world) :
    Keeper (fun past world result => match result with
        | none => Settled past world
        | some domain => Held domain past world) (stopFor target action) past world := by
  unfold stopFor
  split
  · exact stopWorker_keeper settled
  · exact ⟨⟨settled.unblocked, fun _ => settled⟩, fun impossible => absurd rfl impossible⟩

theorem resumeWorker_keeper {domain : String} (held : Held domain past world) :
    Keeper (fun past world _ => Settled past world) (resumeWorker domain) past world := by
  unfold resumeWorker
  split
  · next none => exact held.holding.settled none
  · next some =>
      apply Attempt.bind (runBootstrap (held.gui some) held.holding.unblocked)
      exact fun _ _ _ settled => settled

theorem recover_other (source target : String) (action : Action) :
    (recover source target action).Within (Uses Other) :=
  recover_within (other_of_head rfl (by decide)) (other_of_head rfl (by decide))
    (other_of_head rfl (by decide)) (other_of_head rfl (by decide))
    (other_of_head rfl (by decide)) action

/-- Whatever the recovery ends in, the worker is loaded again. -/
theorem recoverWithWorker_keeper {source target : String} {action : Action}
    (settled : Settled past world) :
    Keeper (fun past world _ => Settled past world)
      (recoverWithWorker source target action) past world := by
  apply Attempt.bind (stopFor_keeper settled)
  intro past₁ world₁ stopped kept
  cases stopped with
  | none => exact kept
  | some domain =>
      have held : Held domain past₁ world₁ := kept
      have recovered := ((recover_other source target action).mono fun _ => uses_tame).guarded
        tame_holding held.holding
      apply Attempt.bind (Attempt.outcome_iff.mpr (Guarded.post_mono recovered _))
      · intro past₂ world₂ outcome holding
        apply Attempt.bind (resumeWorker_keeper ⟨holding, held.gui⟩)
        intro past₃ world₃ resumed settled₃
        apply Attempt.bind_iff.mpr
        apply Attempt.ofExcept_iff.mpr
        cases outcome <;> exact settled₃
      · intro past₂ world₂ outcome holds
        cases outcome <;> exact holds

variable {cfg : Config}

theorem other_probe (path : String) : Other (readProbeCommand cfg path) :=
  other_own (by decide)

theorem attempt_keeper {ip : String} {name : Export} {action : Action} {item : Item}
    {record : Record} (settled : Settled past world) :
    Keeper (fun past world _ => Settled past world)
      (attempt cfg ip name action item record) past world := by
  apply ask_bind.mpr
  intro answer₁ world₁ step₁
  have settled₁ := (tame_settled _ _ _ _ _ (by trivial) step₁ settled).2
  refine ⟨trivial, ask_bind.mpr ?_⟩
  intro now world₂ step₂
  have settled₂ := (tame_settled _ _ _ _ _ (by trivial) step₂ settled₁).2
  refine ⟨trivial, Attempt.bind (recoverWithWorker_keeper settled₂) ?_⟩
  intro past₃ world₃ mounted settled₃
  apply Attempt.bind (keeper_of_within
    (settle_within (other_of_head rfl (by decide)) (fun path _ => other_probe path) _ _ _) settled₃)
  intro past₄ world₄ item settled₄
  apply Attempt.bind (keeper_of_within (stampRead_steady trivial _ _).within settled₄)
  exact fun _ _ _ settled => settled

theorem attend_keeper {source : String} {name : Export} {item : Item} {record : Record}
    (settled : Settled past world) :
    Keeper (fun past world _ => Settled past world)
      (attend cfg source name item record) past world := by
  apply Attempt.bind (keeper_of_within (stampRead_steady trivial _ _).within settled)
  intro past₁ world₁ record settled₁
  apply ask_bind.mpr
  intro now world₂ step₂
  have settled₂ := (tame_settled _ _ _ _ _ (by trivial) step₂ settled₁).2
  refine ⟨trivial, ?_⟩
  split
  · exact settled₂
  · exact attempt_keeper settled₂

theorem supervise_keeper {history : PerExport Record} (settled : Settled past world) :
    Keeper (fun past world _ => Settled past world) (supervise cfg history) past world := by
  apply Attempt.bind (keeper_of_within (inspect_within (other_of_head rfl (by decide))
    (other_of_head rfl (by decide)) other_probe) settled)
  intro past₁ world₁ exports settled₁
  apply Attempt.bind (keeper_of_within
    (sourceFor_within (fun _ => other_of_head rfl (by decide)) exports) settled₁)
  intro past₂ world₂ source settled₂
  apply Attempt.bind (attend_keeper settled₂)
  intro past₃ world₃ srv settled₃
  apply Attempt.bind (attend_keeper settled₃)
  intro past₄ world₄ generated settled₄
  apply Attempt.bind (keeper_of_within (publish_within (other_own (by decide)) _) settled₄)
  exact fun _ _ _ settled => settled

end

/-! ## Runs -/

def ReportsHealthy (pass : Pass interface World (PerExport Record)) : Prop :=
  ∃ moment ∈ pass.moments, ∃ path status,
    moment.operation = .writeStatus path status ∧
    status.exports.srv.item.state = .healthy

/-- The worker that the supervisor stopped stayed so for this many passes, in which the
main share was healthy and no command to load the worker was launched. -/
structure Abandoned {cfg : Config} {world : World} (count : Nat)
    (run : SupervisorRun cfg world) : Prop where
  stopped : run.world.worker = .stopped
  latest : ∃ earlier latest, run.passes = earlier ++ latest ∧ latest.length = count ∧
    ∀ pass ∈ latest, pass.before.worker = .stopped ∧ ReportsHealthy pass ∧
      ∀ moment ∈ pass.moments, ¬Bootstrap moment.operation

/-- In a pass that is over, every stop of the worker was followed by a command to load
it, and the worker is never abandoned. -/
structure Restores {cfg : Config} {world : World} (run : SupervisorRun cfg world) :
    Prop where
  follows : run.outcome.isSome = true → ∀ earlier moment later,
    run.moments = earlier ++ moment :: later → Bootout moment.operation →
    ∃ restart ∈ later, Bootstrap restart.operation
  kept : ∀ count, ¬Abandoned count run

def World.started (clock : ℚ) (loaded : Bool) : World :=
  ⟨clock, [], if loaded then .loaded else .absent⟩

theorem owed_append {newer past : Past interface World} (owed : Owed past)
    (none : ∀ moment ∈ newer, ¬Bootstrap moment.operation) : Owed (newer ++ past) := by
  induction newer with
  | nil => exact owed
  | cons moment newer induction =>
      exact .inr ⟨none moment (by simp),
        induction fun other member => none other (by simp [member])⟩

theorem settled_started (clock : ℚ) (loaded : Bool) : Settled [] (.started clock loaded) := by
  refine ⟨nofun, ?_, id⟩
  cases loaded <;> exact nofun

/-- In every run whose worker commands are honest, the worker is restored. -/
theorem restores_worker {cfg : Config} {clock : ℚ} {loaded : Bool}
    (run : SupervisorRun cfg (.started clock loaded))
    (honest : ∀ moment ∈ run.trace, Honest moment) : Restores run := by
  have passes := run.completed.restrict fun moment member =>
    honest moment (List.mem_append_left _ member)
  have current := run.current.restrict fun moment member =>
    honest moment (List.mem_append_right _ member)
  have settled : Settled run.past run.world := by
    refine Passes.invariant
      (fun passes _ world => Settled (Pass.momentsOf passes).reverse world)
      (settled_started clock loaded) ?_ passes
    intro passes pass settled valid
    rw [Pass.momentsOf_append, Pass.momentsOf_singleton, List.reverse_append]
    exact (supervise_keeper settled).result valid
  constructor
  · intro ended earlier moment later split out
    have ends : Settled (run.moments.reverse ++ run.past) run.final := by
      cases outcome : run.outcome with
      | none =>
          rw [outcome] at ended
          cases ended
      | some result =>
          rw [outcome] at current
          have last := (supervise_keeper settled).result current
          cases result <;> exact last
    by_contra never
    apply ends.notOwed
    rw [split, List.reverse_append, List.reverse_cons, List.append_assoc,
      List.append_assoc]
    have owed : Owed (moment :: (earlier.reverse ++ run.past)) := Or.inl out
    apply owed_append owed
    intro restart member launches
    exact never ⟨restart, List.mem_reverse.mp member, launches⟩
  · intro count abandoned
    exact settled.notStopped abandoned.stopped

/-! ## Stops and starts that fail -/

instance : DecidablePred Bootout
  | .launch command _ => decidable_of_iff (isBootout command = true) isBootout_iff
  | .pending | .poll _ | .forget _ | .remember _ | .monotonic | .time | .getpwnam _
  | .isFile _ | .announce _ _ _ | .writeStatus _ _ | .sleep _ => .isFalse id

instance : DecidablePred Bootstrap
  | .launch command _ => decidable_of_iff (isBootstrap command = true) isBootstrap_iff
  | .pending | .poll _ | .forget _ | .remember _ | .monotonic | .time | .getpwnam _
  | .isFile _ | .announce _ _ _ | .writeStatus _ _ | .sleep _ => .isFalse id

def bothMounted : String :=
  "h:/srv on /Volumes/homelab-srv (nfs)\nh:/g on /Volumes/homelab-generated (nfs)"

def shares (flags : String) (out strap : Launched) : Script
  | [_] => exits 0 bothMounted
  | [_, _] => exits 0 ("/Volumes/homelab-srv from h\nStatus flags:" ++ flags)
  | [_, verb, _] => if verb = "bootout" then out else exits 0 ""
  | [_, verb, _, _] => if verb = "bootstrap" then strap else exits 0 ""
  | _ => exits 0 ""

def fine : Script := shares "0x0" (exits 0 "") (exits 0 "")

/-- The main share is healthy once, and then hangs for two passes. -/
def hangs (out strap : Launched) : SupervisorRun pilotConfig (.started 0 true) :=
  let hung := shares "0x2,not responding" out strap
  follow (follow (follow .begin fine).complete hung).complete hung

instance (moment : Moment interface World) : Decidable (Honest moment) :=
  decidable_of_iff
    ((Bootout moment.operation → succeeded moment.operation moment.answer = true) ∧
      (Bootstrap moment.operation → moment.after.worker = .loaded ∧
        leftBlocked moment.operation moment.answer = false))
    ⟨fun both => ⟨both.1, both.2⟩, fun honest => ⟨honest.stops, honest.loads⟩⟩

theorem restores_worker_recovery : Restores (hangs (exits 0 "") (exits 0 "")) := by
  apply restores_worker
  decide +kernel

theorem timedOut_bootout :
    (hangs (.expired false) (exits 0 "")).outcome.isSome = true ∧
      (∃ moment ∈ (hangs (.expired false) (exits 0 "")).moments,
        Bootout moment.operation) ∧
      ∀ moment ∈ (hangs (.expired false) (exits 0 "")).moments,
        ¬Bootstrap moment.operation := by
  decide +kernel

def afterRecovery : PerExport Record where
  srv := ⟨0, 0, 1, false, 1700000000⟩
  generated := ⟨0, -300, 0, false, 0⟩

def healthyStatus : Operation → Bool
  | .writeStatus _ status => status.exports.srv.item.state = Health.healthy
  | _ => false

abbrev finePass := simulate (host fine) 200 (supervise pilotConfig afterRecovery).run []
  ⟨0, [], .stopped⟩

theorem finePass_steady : finePass.2 = (⟨0, [], .stopped⟩, some (.ok afterRecovery)) ∧
    (∃ moment ∈ finePass.1, healthyStatus moment.operation = true) ∧
    ∀ moment ∈ finePass.1, ¬Bootstrap moment.operation := by
  decide +kernel

/-- The bootstrap fails, the share comes back, and one healthy pass goes by. -/
def unloaded : SupervisorRun pilotConfig (.started 0 true) :=
  (follow (hangs (exits 0 "") (exits 5 "Bootstrap failed")).complete fine).complete

theorem unloaded_ends :
    unloaded.state = afterRecovery ∧ unloaded.world = ⟨0, [], .stopped⟩ := by
  decide +kernel

section

variable {cfg : Config} {world : World} {run next : SupervisorRun cfg world}

theorem abandoned_zero (stopped : run.world.worker = .stopped) : Abandoned 0 run :=
  ⟨stopped, run.passes, [], (List.append_nil _).symm, rfl, by simp⟩

theorem abandoned_succ {count : Nat} {pass : Pass interface World (PerExport Record)}
    (abandoned : Abandoned count run) (passes : next.passes = run.passes ++ [pass])
    (before : pass.before.worker = .stopped) (healthy : ReportsHealthy pass)
    (quiet : ∀ moment ∈ pass.moments, ¬Bootstrap moment.operation)
    (stopped : next.world.worker = .stopped) : Abandoned (count + 1) next := by
  rcases abandoned.latest with ⟨earlier, latest, split, length, each⟩
  refine ⟨stopped, earlier, latest ++ [pass], ?_, by simp [length], ?_⟩
  · rw [passes, split, List.append_assoc]
  · rw [List.forall_mem_append, List.forall_mem_singleton]
    exact ⟨each, before, healthy, quiet⟩

/-- A healthy pass changes nothing, so it can be followed by another. -/
theorem abandoned_fine {run : SupervisorRun pilotConfig world} {count : Nat}
    (state : run.state = afterRecovery) (stopped : run.world = ⟨0, [], .stopped⟩)
    (abandoned : Abandoned count run) :
    (follow run fine).complete.state = afterRecovery ∧
      (follow run fine).complete.world = ⟨0, [], .stopped⟩ ∧
      Abandoned (count + 1) (follow run fine).complete := by
  rcases finePass_steady with ⟨steady, ⟨moment, member, reported⟩, quiet⟩
  have pass : simulate (host fine) 200 (supervise pilotConfig run.state).run [] run.world =
      finePass := by rw [state, stopped]
  have moments : (follow run fine).moments = finePass.1 := congrArg Prod.fst pass
  have ends : ((follow run fine).final, (follow run fine).outcome) =
      (⟨0, [], .stopped⟩, some (.ok afterRecovery)) := by
    rw [← steady, ← pass]
    rfl
  have ⟨final, outcome⟩ := Prod.mk.inj ends
  have ⟨passes, nextState, nextWorld⟩ := LoopRun.complete_of_ended outcome
  rw [final] at nextWorld
  refine ⟨nextState, nextWorld, abandoned_succ abandoned passes ?_ ?_ ?_ ?_⟩
  · exact congrArg World.worker stopped
  · refine ⟨moment, moments ▸ member, ?_⟩
    cases operation : moment.operation with
    | writeStatus path status =>
        rw [operation] at reported
        exact ⟨path, status, rfl, by simpa [healthyStatus] using reported⟩
    | _ =>
        rw [operation] at reported
        cases reported
  · exact fun moment member => quiet moment (moments ▸ member)
  · rw [nextWorld]

end

theorem abandoned_for (count : Nat) : ∃ run : SupervisorRun pilotConfig (.started 0 true),
    run.state = afterRecovery ∧ run.world = ⟨0, [], .stopped⟩ ∧ Abandoned count run := by
  induction count with
  | zero =>
      have ⟨state, world⟩ := unloaded_ends
      generalize unloaded = run at state world
      exact ⟨run, state, world, abandoned_zero (congrArg World.worker world)⟩
  | succ count induction =>
      rcases induction with ⟨run, state, world, abandoned⟩
      exact ⟨_, abandoned_fine state world abandoned⟩

theorem not_restores {cfg : Config} {world : World} {run : SupervisorRun cfg world}
    (ended : run.outcome.isSome = true)
    (out : ∃ moment ∈ run.moments, Bootout moment.operation)
    (quiet : ∀ moment ∈ run.moments, ¬Bootstrap moment.operation) : ¬Restores run := by
  intro restores
  rcases out with ⟨moment, member, out⟩
  rcases List.append_of_mem member with ⟨earlier, later, split⟩
  rcases restores.follows ended earlier moment later split out with
    ⟨restart, restartMember, launches⟩
  exact quiet restart (by simp [split, restartMember]) launches

/-- A stop that times out is not followed by a start, and a start that fails is not
tried again, however long the share is healthy. -/
theorem worker_not_restored :
    (∃ run : SupervisorRun pilotConfig (.started 0 true), ¬Restores run) ∧
      ∀ count, ∃ run : SupervisorRun pilotConfig (.started 0 true), Abandoned count run := by
  constructor
  · have ⟨ended, out, quiet⟩ := timedOut_bootout
    exact ⟨_, not_restores ended out quiet⟩
  · intro count
    have ⟨run, _, _, abandoned⟩ := abandoned_for count
    exact ⟨run, abandoned⟩

end Homelab.NfsMount
