import Homelab.Backup.Account

/-! # The recipe that stops a container

`backup-stop_tar.sh`. Its handler starts the container again, whenever it runs.
-/

namespace Homelab.Backup

open Effects Effects.Trap Text

variable {Content : Type}

variable [DecidableEq Content] {initial : Files Content}
  {holds : Account Content → Files Content → Prop}
  {past : Past (calls shell) (Files Content)} {files : Files Content}

abbrev StopVerdict (initial : Files Content) (account : Account Content)
    (files : Files Content) : Prop :=
  Atomic initial account files ↔ account.missed = false ∧ account.woken = false

def Account.restart (account : Account Content) (running : Bool) : Account Content :=
  if running then { account with restarted := true } else account

omit [DecidableEq Content] in
theorem restart_woken (account : Account Content) (running : Bool) :
    (account.restart running).woken = account.woken := by
  cases running <;> rfl

/-- The handler starts the container, if it was running, and cleans up. -/
theorem endsIn_restart {running : Bool} {now_ : Account Content → Files Content → Prop}
    (now : On now_ past files)
    (each : ∀ account files after, now_ account files → Tidied [.building] files after →
      holds (account.restart running) after) :
    EndsIn holds (restartContainer running) past files := by
  cases running with
  | true =>
      intro _ after started
      refine ⟨trivial, ends_act fun tidied step => ?_⟩
      rw [show after = files from started] at step
      exact each _ files tidied now step
  | false => exact ends_act fun tidied step => each _ files tidied now step

theorem stable_restart {running : Bool}
    (each : ∀ account files after, holds account files → Tidied [.building] files after →
      holds (account.restart running) after) : Stable (restartContainer running) holds :=
  fun _ _ now => endsIn_restart now each

/-- The account of the container, once the archive has been written or will not be. -/
structure Resting (running : Bool) (account : Account Content) : Prop where
  stopped : account.stopped = true → running = true
  woken : account.woken = true → account.stopped = true
  early : account.early = account.woken

omit [DecidableEq Content] in
theorem Resting.restart {running : Bool} {account : Account Content}
    (resting : Resting running account) : Resting running (account.restart running) := by
  rcases resting with ⟨stopped, woken, early⟩
  cases running <;> exact ⟨stopped, woken, early⟩

omit [DecidableEq Content] in
/-- Once the container is started again, all that counts is that it was not woken early. -/
theorem Resting.atomic_iff {running : Bool} {account : Account Content}
    (resting : Resting running account) :
    ((account.restart running).stopped = true →
      (account.restart running).restarted = true ∧ (account.restart running).early = false) ↔
        account.woken = false := by
  rcases resting with ⟨stopped, woken, early⟩
  cases running with
  | false =>
      have never : account.stopped = false := by
        by_contra is_
        simpa using stopped (by simpa using is_)
      have calm : account.woken = false := by
        by_contra is_
        simpa [never] using woken (by simpa using is_)
      simp [Account.restart, never, calm]
  | true =>
      simp only [Account.restart, if_true, early, true_and]
      constructor
      · intro whole
        by_contra is_
        have woken_ : account.woken = true := by simpa using is_
        simpa [woken_] using whole (woken woken_)
      · exact fun calm _ => calm

theorem Resting.note {command : Command} {running : Bool} {account : Account Content}
    {before after : Files Content} {reply : Reply command.Value}
    (resting : Resting running account) (other : command ≠ .stop)
    (built : ∀ slot, command ≠ .build slot) :
    Resting running (account.note before after (.run command) reply) := by
  rcases resting with ⟨stopped, woken, early⟩
  cases command with
  | stop => exact absurd rfl other
  | build slot => exact absurd rfl (built slot)
  | rename =>
      simp only [Account.note]
      split <;> exact ⟨stopped, woken, early⟩
  | _ => exact ⟨stopped, woken, early⟩

omit [DecidableEq Content] in
theorem Calm.restart {running : Bool} {account : Account Content} {files : Files Content}
    (calm : Calm initial account files) : Calm initial (account.restart running) files := by
  rcases calm with ⟨archive, complete, moved, missed, late, said⟩
  cases running <;> exact ⟨archive, complete, moved, missed, late, said⟩

omit [DecidableEq Content] in
theorem Held.restart {running : Bool} {slot : Slot} {account : Account Content}
    {files : Files Content} (held : Held slot account files) :
    Held slot (account.restart running) files := by
  cases running <;> exact held

/-- Nothing has become of the archive, and something was built if the recipe goes on. -/
structure Stopped (initial : Files Content) (running : Bool) (success : Prop)
    (account : Account Content) (files : Files Content) : Prop where
  calm : Calm initial account files
  resting : Resting running account
  held : success → Held .building account files ∨ files .building = none

theorem stopped_stable {running : Bool} {success : Prop} :
    Stable (restartContainer running) (Stopped initial running success) :=
  stable_restart fun _ _ _ now tidied =>
    ⟨(now.calm.tidied tidied (by decide)).restart, now.resting.restart,
      fun success => (now.held success).imp (fun held => (held.tidied tidied).restart)
        tidied.gone⟩

/-- A failure of the recipe: the container is started again. -/
theorem endsIn_stopped_giveUp {running : Bool} {report : Report} (fails : report.isOk = false)
    (calm : Calm initial (accountOf past) files) (resting : Resting running (accountOf past)) :
    EndsIn (StopVerdict initial) (giveUp (restartContainer running) report) past files := by
  have now : On (Stopped initial running False) past files :=
    ⟨calm, resting, False.elim⟩
  refine endsIn_giveUp stopped_stable ?_ ?_ now
  · intro account files reply now
    exact ⟨@Calm.run _ _ initial (.print report) _ _ _ _ now.calm rfl
      (by simp [Command.quiet, fails]),
      @Resting.note _ _ (.print report) _ _ _ _ _ now.resting (by simp) (by simp), False.elim⟩
  · intro past files now
    refine endsIn_restart now fun account files after now tidied => ?_
    have calm : Calm initial (account.restart running) after :=
      (now.calm.tidied tidied (by decide)).restart
    rw [StopVerdict, restart_woken]
    constructor
    · intro atomic
      exact ⟨calm.missed, now.resting.atomic_iff.mp atomic.restarted⟩
    · intro steady
      exact ⟨fun told => by simp [calm.said] at told, .inr calm.archive,
        now.resting.atomic_iff.mpr steady.2⟩

/-- The `mv` renamed a sound archive, or nothing. -/
structure Tried (initial : Files Content) (running : Bool) (account : Account Content)
    (files : Files Content) : Prop where
  resting : Resting running account
  outcome : (account.complete = true ∧ account.missed = false) ∨
    (account.missed = true ∧ account.complete = false)

theorem tried_stable {running : Bool} :
    Stable (restartContainer running) (Tried initial running) :=
  stable_restart fun account _ _ now _ =>
    ⟨now.resting.restart, by cases running <;> exact now.outcome⟩

theorem tried_rename {running : Bool} {account : Account Content} {files after : Files Content}
    {reply : Reply Bool} (now : Stopped initial running True account files)
    (leaves : Leaves files (.run .rename) reply after) :
    Tried initial running (account.note files after (.run .rename) reply) after := by
  refine ⟨now.resting.note (by simp) (by simp), ?_⟩
  cases renamed : reply.value with
  | true =>
      left
      simp only [Leaves, renamed, if_true] at leaves
      rcases now.held trivial with held | gone
      · have sound := (check_held held leaves.1).2
        simp [Account.note, renamed, sound, now.calm.missed]
      · exact absurd gone leaves.1
  | false =>
      right
      simp [Account.note, renamed, now.calm.complete]

/-- What the container was doing when the archive is about to be written. -/
structure Ready (running : Bool) (account : Account Content) : Prop where
  stopped : account.stopped = true → running = true
  woken : account.woken = (account.stopped && account.restarted)
  early : account.early = false

theorem Stopped.run {command : Command} {running : Bool} {success : Prop}
    {account : Account Content} {files after : Files Content} {reply : Reply command.Value}
    (now : Stopped initial running success account files)
    (leaves : Leaves files (.run command) reply after) (quiet : command.quiet = true)
    (other : command ≠ .stop) (built : ∀ slot, command ≠ .build slot) :
    Stopped initial running False (account.note files after (.run command) reply) after :=
  ⟨now.calm.run leaves quiet, now.resting.note other built, False.elim⟩

/-- The listing of an archive that is there, or has been cleaned away. -/
theorem stopped_entries {running : Bool} {account : Account Content}
    {files after : Files Content} {reply : Reply Int}
    (now : Stopped initial running True account files)
    (leaves : Leaves files (.run (.entries 0)) reply after) :
    Stopped initial running True (account.note files after (.run (.entries 0)) reply) after := by
  refine ⟨now.calm.run leaves rfl, now.resting.note (by simp) (by simp), fun _ => ?_⟩
  by_cases gone : files .building = none
  · right
    rw [leaves.1, gone]
  · left
    have held : Held .building account files := (now.held trivial).resolve_right gone
    exact held.passed gone (by simp [Account.note, leaves.2.1]) (by rw [leaves.1])

/-- A command after the `mv`. -/
theorem Tried.passes {command : Command} {running : Bool} {account : Account Content}
    {files after : Files Content} {reply : Reply command.Value}
    (now : Tried initial running account files) (other : command ≠ .stop)
    (built : ∀ slot, command ≠ .build slot) (again : command ≠ .rename) :
    Tried initial running (account.note files after (.run command) reply) after := by
  refine ⟨now.resting.note other built, ?_⟩
  have outcome := now.outcome
  cases command with
  | rename => exact absurd rfl again
  | _ => exact outcome

/-- After the report the container is started again. -/
theorem endsIn_told {running : Bool}
    (now : On (fun account files => Tried initial running account files ∧ account.said = true)
      past files) :
    EndsIn (StopVerdict initial) (restartContainer running) past files := by
  refine endsIn_restart now fun account files after now _ => ?_
  rcases now with ⟨⟨resting, outcome⟩, said⟩
  have missed : (account.restart running).missed = account.missed := by
    cases running <;> rfl
  have complete : (account.restart running).complete = account.complete := by
    cases running <;> rfl
  have told : (account.restart running).said = true := by
    cases running <;> exact said
  rw [StopVerdict, restart_woken, missed]
  rcases outcome with ⟨renamed, kept⟩ | ⟨missed_, incomplete⟩
  · constructor
    · intro atomic
      exact ⟨kept, resting.atomic_iff.mp atomic.restarted⟩
    · intro steady
      exact ⟨fun _ => complete.trans renamed, .inl (complete.trans renamed),
        resting.atomic_iff.mpr steady.2⟩
  · refine iff_of_false ?_ ?_
    · intro atomic
      simpa [complete, incomplete] using atomic.told told
    · intro steady
      simp [missed_] at steady

theorem stoppedTar_verdict (service : Line) {running : Bool} (startMs : Int)
    (calm : Calm initial (accountOf past) files) (ready : Ready running (accountOf past)) :
    EndsIn (StopVerdict initial) (stoppedTar service running startMs) past files := by
  dsimp only [stoppedTar]
  refine endsIn_trapped (.build .building)
    (fun (rc : Nat) => Stopped initial running (rc = 0)) (fun _ => stopped_stable) ?_ ?_
  · intro reply after leaves
    refine ⟨calm.run leaves rfl, ?_, fun success => .inl (held_build leaves success)⟩
    rcases ready with ⟨stopped, woken, early⟩
    exact ⟨stopped, fun woken_ => by simp_all [Account.note, Account.hear],
      by simp [Account.note, Account.hear, early, woken]⟩
  intro (rc : Nat) past files now_
  refine endsIn_trapped .milliseconds (fun _ => Stopped initial running (rc = 0))
    (fun _ => stopped_stable) ?_ ?_
  · intro reply after leaves
    rw [show after = files from leaves]
    exact ⟨now_.calm.run rfl rfl, now_.resting.note (by simp) (by simp), now_.held⟩
  intro now past files now_
  by_cases success : rc = 0
  · simp only [success, ne_eq, not_true, if_false]
    have now_ : Stopped initial running True (accountOf past) files :=
      ⟨now_.calm, now_.resting, fun _ => now_.held success⟩
    refine endsIn_trapped (.entries 0) (fun _ => Stopped initial running True)
      (fun _ => stopped_stable) (fun _ _ leaves => stopped_entries now_ leaves) ?_
    intro (entries : Int) past files now_
    refine endsIn_trapped .rename (fun _ => Tried initial running) (fun _ => tried_stable)
      (fun _ _ leaves => tried_rename now_ leaves) ?_
    intro _ past files now_
    refine endsIn_trapped .size (fun _ => Tried initial running) (fun _ => tried_stable)
      (fun _ _ _ => now_.passes (by simp) (by simp) (by simp)) ?_
    intro bytes past files now_
    refine endsIn_trapped (.remove []) (fun _ => Tried initial running) (fun _ => tried_stable)
      (fun _ _ _ => now_.passes (by simp) (by simp) (by simp)) ?_
    intro _ past files now_
    refine endsIn_trapped (.print _)
      (fun _ account files => Tried initial running account files ∧ account.said = true)
      (fun _ => ?_) ?_ (fun _ _ _ now_ => endsIn_told now_)
    · exact stable_restart fun account _ _ now_ _ =>
        ⟨⟨now_.1.resting.restart, by cases running <;> exact now_.1.outcome⟩,
          by cases running <;> exact now_.2⟩
    · exact fun _ _ _ =>
        ⟨now_.passes (by simp) (by simp) (by simp), by simp [Account.note, Report.isOk]⟩
  · simp only [success, ne_eq, not_false_eq_true, if_true]
    refine endsIn_trapped .errors (fun _ => Stopped initial running False)
      (fun _ => stopped_stable)
      (fun _ _ leaves => now_.run leaves rfl (by simp) (by simp)) ?_
    intro errors past files now_
    refine endsIn_trapped (.remove []) (fun _ => Stopped initial running False)
      (fun _ => stopped_stable)
      (fun _ _ leaves => now_.run leaves rfl (by simp) (by simp)) ?_
    intro _ past files now_
    exact endsIn_stopped_giveUp rfl now_.calm now_.resting

structure Unstopped (initial : Files Content) (account : Account Content)
    (files : Files Content) : Prop where
  calm : Calm initial account files
  stopped : account.stopped = false
  early : account.early = false
  woken : account.woken = false

theorem Unstopped.run {command : Command} {account : Account Content}
    {files after : Files Content} {reply : Reply command.Value}
    (now : Unstopped initial account files)
    (leaves : Leaves files (.run command) reply after) (quiet : command.quiet = true)
    (other : command ≠ .stop) (built : ∀ slot, command ≠ .build slot) :
    Unstopped initial (account.note files after (.run command) reply) after := by
  rcases now with ⟨calm, stopped, early, woken⟩
  have kept := calm.run leaves quiet
  cases command with
  | stop => exact absurd rfl other
  | build slot => exact absurd rfl (built slot)
  | rename => simp [Command.quiet] at quiet
  | _ => exact ⟨kept, stopped, early, woken⟩

omit [DecidableEq Content] in
theorem Unstopped.verdict {account : Account Content} {files : Files Content}
    (now : Unstopped initial account files) : StopVerdict initial account files := by
  refine iff_of_true ?_ ⟨now.calm.missed, now.woken⟩
  exact ⟨fun told => by simp [now.calm.said] at told, .inr now.calm.archive,
    fun stopped => by simp [now.stopped] at stopped⟩

theorem unstopped_stable {running : Bool} :
    Stable (restartContainer running) (Unstopped initial) :=
  stable_restart fun account _ _ now tidied => by
    have calm : Calm initial (account.restart running) _ :=
      (now.calm.tidied tidied (by decide)).restart
    cases running <;> exact ⟨calm, now.stopped, now.early, now.woken⟩

/-- A `docker stop` with a signal: the handler has started the container again. -/
structure Interrupted (initial : Files Content) (succeeded : Bool) (account : Account Content)
    (files : Files Content) : Prop where
  calm : Calm initial account files
  stopped : account.stopped = true
  restarted : account.restarted = true
  early : account.early = false
  woken : account.woken = succeeded

theorem endsIn_stop {service : Line} {startMs : Int}
    (now : On (Unstopped initial) past files) :
    EndsIn (StopVerdict initial)
      (trapped (restartContainer true) (Command.stop : shell.Command) fun (stopped : Bool) =>
        if stopped then stoppedTar service true startMs
        else giveUp (restartContainer true)
          ⟨service, .stopTar, .fail 0 "docker stop failed".toList⟩) past files := by
  have calm : ∀ (reply : Reply Bool),
      Calm initial ((accountOf past).note files files (.run .stop) reply) files :=
    fun reply => @Calm.run _ _ initial .stop _ _ _ _ now.calm rfl rfl
  refine ends_trapped_cases
    (fun reply : Reply Bool => On (Interrupted initial reply.value)) ?_ ?_ ?_ ?_
  · intro (reply : Reply Bool) after leaves quiet
    rw [show after = files from leaves]
    cases stopped : reply.value with
    | true =>
        refine stoppedTar_verdict service startMs (calm reply) ⟨fun _ => rfl, ?_, ?_⟩
        · simp [accountOf, Account.note, quiet, now.woken]
        · exact now.early
    | false =>
        refine endsIn_stopped_giveUp rfl (calm reply) ⟨fun _ => rfl, fun _ => rfl, ?_⟩
        simp [accountOf, Account.note, stopped, now.woken, Account.hear, now.early]
  · intro (reply : Reply Bool) after leaves some_
    rw [show after = files from leaves]
    let noted := (accountOf past).note files files (.run .stop) reply
    have start : On (fun account files_ => account = noted ∧ files_ = files)
        (⟨files, .run .stop, reply, files⟩ :: past) files := ⟨rfl, rfl⟩
    refine endsIn_restart start fun account files_ after same tidied => ?_
    rw [same.2] at tidied
    rw [same.1]
    refine ⟨((calm reply).tidied tidied (by decide)).restart, rfl, rfl, now.early, ?_⟩
    simp [Account.restart, noted, Account.note, now.woken, some_]
  · intro reply past files now
    refine stable_restart (fun account files after now tidied => ?_) past files now
    exact ⟨(now.calm.tidied tidied (by decide)).restart, now.stopped, rfl, now.early, now.woken⟩
  · intro (reply : Reply Bool) past files _ now
    cases stopped : reply.value with
    | true =>
        refine stoppedTar_verdict service startMs now.calm ⟨fun _ => rfl, ?_, now.early⟩
        simp [now.stopped, now.restarted, now.woken, stopped]
    | false =>
        refine endsIn_stopped_giveUp rfl now.calm ⟨fun _ => rfl, fun _ => now.stopped, ?_⟩
        rw [now.early, now.woken, stopped]

theorem stopTar_verdict (service : Line) (now : On (Unstopped initial) past files) :
    EndsIn (StopVerdict initial) (stopTarRecipe service) past files := by
  dsimp only [stopTarRecipe]
  refine endsIn_untrapped .makeDirectory
    (fun _ _ leaves _ => (now.run leaves rfl (by simp) (by simp)).verdict) ?_
  intro _ after since leaves _ same
  have now : On (Unstopped initial) since after := by
    rw [On, same]
    exact now.run leaves rfl (by simp) (by simp)
  refine endsIn_untrapped .inspect
    (fun _ _ leaves _ => (now.run leaves rfl (by simp) (by simp)).verdict) ?_
  intro (inspected : Reply Bool) after since leaves _ same
  have now : On (Unstopped initial) since after := by
    rw [On, same]
    exact now.run leaves rfl (by simp) (by simp)
  refine endsIn_trapped .milliseconds (fun _ => Unstopped initial) (fun _ => unstopped_stable)
    (fun _ _ leaves => now.run leaves rfl (by simp) (by simp)) ?_
  intro (startMs : Int) past files now
  cases running : inspected.value with
  | true =>
      simp only [if_true]
      exact endsIn_stop now
  | false =>
      simp only [Bool.false_eq_true, if_false]
      exact stoppedTar_verdict service startMs now.calm
        ⟨fun stopped => by simp [now.stopped] at stopped, by simp [now.stopped, now.woken],
          now.early⟩

end Homelab.Backup
