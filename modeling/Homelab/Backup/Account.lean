import Homelab.Backup.Recipe

/-! # What a recipe leaves behind

The files of a day directory under the commands of a recipe, whatever their exit statuses and
wherever signals come. A run is judged by an account of its moments.
-/

namespace Homelab.Backup

open Effects Effects.Trap Text

variable {Content : Type}

/-! ## Files -/

abbrev Files (Content : Type) := Slot → Option Content

def Tidied (slots : List Slot) (files after : Files Content) : Prop :=
  ∀ slot, after slot = files slot ∨ (slot ∈ slots ∧ after slot = none)

/-- What a command leaves. One that writes a file and fails may leave anything there. -/
def Leaves (files : Files Content) :
    (operation : Operation shell) → (calls shell).Answer operation → Files Content → Prop
  | .act (.tidy slots), _, after => Tidied slots files after
  | .act .start, _, after => after = files
  | .run (.build slot), (reply : Reply Nat), after =>
      (∀ other, other ≠ slot → after other = files other) ∧
        (reply.value = 0 → after slot ≠ none)
  -- A database that is not there is created, empty.
  | .run .schema, _, after =>
      (∀ other, other ≠ .copy → after other = files other) ∧
        (files .copy ≠ none → after .copy = files .copy)
  | .run .compress, (reply : Reply Nat), after =>
      after .archive = files .archive ∧
        (reply.value = 0 → files .copy ≠ none ∧ after .building ≠ none)
  | .run .test, (reply : Reply Bool), after =>
      after = files ∧ (reply.value = true → files .building ≠ none)
  | .run (.entries _), (reply : Reply Int), after =>
      after = files ∧ 0 ≤ reply.value ∧ (files .building = none → reply.value = 0)
  | .run .rename, (reply : Reply Bool), after =>
      if reply.value then
        files .building ≠ none ∧ after .archive = files .building ∧ after .building = none ∧
          after .copy = files .copy
      else after = files
  | .run (.remove slots), _, after => Tidied slots files after
  | .run _, _, after => after = files

def dayDirectory (Content : Type) : System (calls shell) (Files Content) where
  Step := Leaves

/-! ## Accounts -/

structure Account (Content : Type) where
  /-- The archive, or the copy it is made of, as far as it is complete and every check of it
  has passed. -/
  sound : Option Content
  /-- A sound archive was renamed onto the final name. -/
  complete : Bool
  /-- The `mv` renamed what there was, or did not. -/
  moved : Bool
  missed : Bool
  /-- It put in place the same archive as there was. -/
  repeated : Bool
  /-- A signal came after the `mv` and before the status line. -/
  late : Bool
  /-- The schema was read where no copy was. -/
  blank : Bool
  /-- Status `ok` was printed. -/
  said : Bool
  /-- `docker stop` was issued, and `docker start` since. -/
  stopped : Bool
  restarted : Bool
  /-- `docker start` was issued before the archive had been written. -/
  early : Bool
  /-- A signal came with the `docker stop` that succeeded. -/
  woken : Bool

def Account.opened : Account Content where
  sound := none
  complete := false
  moved := false
  missed := false
  repeated := false
  late := false
  blank := false
  said := false
  stopped := false
  restarted := false
  early := false
  woken := false

def Report.isOk (report : Report) : Bool :=
  match report.ending with
  | .ok .. => true
  | .fail .. => false

section Note

variable [DecidableEq Content]

/-- What stays sound after a command that passed or not, on a file that holds `checked`. -/
def Account.check (account : Account Content) (passed : Bool) (checked : Option Content) :
    Option Content :=
  if passed = true ∧ checked = account.sound then account.sound else none

/-- A signal with a command between the `mv` and the status line. -/
def Account.hear (account : Account Content) (signals : Nat) : Account Content :=
  { account with
    late := account.late || ((account.moved || account.missed) && decide (0 < signals)) }

def Account.note (account : Account Content) (before after : Files Content) :
    (operation : Operation shell) → (calls shell).Answer operation → Account Content
  | .act (.tidy _), _ => account
  | .act .start, _ => { account with restarted := true }
  | .run (.print report), _ => { account with said := account.said || report.isOk }
  | .run .rename, (reply : Reply Bool) =>
      if reply.value then
        { account with
          moved := true
          complete := decide (before .building = account.sound)
          repeated := decide (before .building = before .archive) }
      else { account with missed := true }
  | .run (.build slot), (reply : Reply Nat) =>
      { account.hear reply.signals with
        sound := if reply.value = 0 then after slot else none
        early := account.early || (account.stopped && account.restarted) }
  | .run .schema, (reply : Reply Bool) =>
      { account.hear reply.signals with
        sound := account.check reply.value (before .copy)
        blank := account.blank || decide (before .copy = none) }
  | .run .compress, (reply : Reply Nat) =>
      { account.hear reply.signals with
        sound :=
          if reply.value = 0 ∧ before .copy = account.sound then after .building else none }
  | .run .test, (reply : Reply Bool) =>
      { account.hear reply.signals with
        sound := account.check reply.value (before .building) }
  | .run (.entries least), (reply : Reply Int) =>
      { account.hear reply.signals with
        sound := account.check (decide (least ≤ reply.value)) (before .building) }
  | .run .stop, (reply : Reply Bool) =>
      { account.hear reply.signals with
        stopped := true
        restarted := false
        woken := account.woken || (reply.value && decide (0 < reply.signals)) }
  | .run _, reply => account.hear reply.signals

def accountOf : Past (calls shell) (Files Content) → Account Content
  | [] => .opened
  | moment :: past =>
      (accountOf past).note moment.before moment.after moment.operation moment.answer

end Note

/-- The run printed status ok only with a sound archive renamed, left the archive alone
otherwise, and started a container that it had stopped, after the archive was written. -/
structure Atomic (initial : Files Content) (account : Account Content)
    (final : Files Content) : Prop where
  told : account.said = true → account.complete = true
  kept : account.complete = true ∨ final .archive = initial .archive
  restarted : account.stopped = true → account.restarted = true ∧ account.early = false

/-- The `mv` renames, or its recipe does not live to tell; the database copy has not gone
before it is checked; no signal comes with the `docker stop`. -/
def Recipe.Steady (account : Account Content) : Recipe → Prop
  | .stopTar _ => account.missed = false ∧ account.woken = false
  | .sqlite _ _ =>
      (account.missed = true → account.late = true) ∧
        (account.moved = true → account.blank = true →
          account.late = true ∧ account.repeated = true)
  | .tar _ | .pgDump _ _ _ => account.missed = true → account.late = true

/-! ## States of a run -/

section States

variable {initial : Files Content}

/-- Nothing has become of the archive, and nothing has been said of it. -/
structure Calm (initial : Files Content) (account : Account Content) (files : Files Content) :
    Prop where
  archive : files .archive = initial .archive
  complete : account.complete = false
  moved : account.moved = false
  missed : account.missed = false
  late : account.late = false
  said : account.said = false

theorem Tidied.archive {slots : List Slot} {files after : Files Content}
    (tidied : Tidied slots files after) (spared : .archive ∉ slots) :
    after .archive = files .archive := by
  rcases tidied .archive with same | ⟨member, _⟩
  · exact same
  · exact absurd member spared

theorem Tidied.gone {slots : List Slot} {files after : Files Content} {slot : Slot}
    (tidied : Tidied slots files after) (gone : files slot = none) : after slot = none := by
  rcases tidied slot with same | ⟨_, gone⟩
  · rwa [same]
  · exact gone

theorem Calm.tidied {slots : List Slot} {account : Account Content} {files after : Files Content}
    (calm : Calm initial account files) (tidied : Tidied slots files after)
    (spared : .archive ∉ slots) : Calm initial account after :=
  { calm with archive := (tidied.archive spared).trans calm.archive }

theorem Account.hear_zero (account : Account Content) : account.hear 0 = account := by
  simp [Account.hear]

theorem Account.hear_signals {account : Account Content} {signals : Nat}
    (tried : (account.moved || account.missed) = true) (some_ : 0 < signals) :
    account.hear signals = { account with late := true } := by
  simp [Account.hear, tried, some_]

theorem tidied_nil {files after : Files Content} (tidied : Tidied [] files after) :
    after = files := by
  funext slot
  rcases tidied slot with same | ⟨member, _⟩
  · exact same
  · cases member

def Held (slot : Slot) (account : Account Content) (files : Files Content) : Prop :=
  ∃ content, account.sound = some content ∧ (files slot = some content ∨ files slot = none)

theorem Held.tidied {slot : Slot} {slots : List Slot} {account : Account Content}
    {files after : Files Content} (held : Held slot account files)
    (tidied : Tidied slots files after) : Held slot account after := by
  rcases held with ⟨content, sound, there⟩
  refine ⟨content, sound, ?_⟩
  rcases tidied slot with same | ⟨_, gone⟩
  · rwa [same]
  · exact .inr gone

def Undone (initial : Files Content) (account : Account Content) (files : Files Content) :
    Prop :=
  Calm initial account files ∧ account.stopped = false

theorem Undone.tidied {slots : List Slot} {account : Account Content} {files after : Files Content}
    (undone : Undone initial account files) (tidied : Tidied slots files after)
    (spared : .archive ∉ slots) : Undone initial account after :=
  ⟨undone.1.tidied tidied spared, undone.2⟩

theorem Undone.atomic {account : Account Content} {files : Files Content}
    (undone : Undone initial account files) : Atomic initial account files where
  told said := by simp [undone.1.said] at said
  kept := .inr undone.1.archive
  restarted stopped := by simp [undone.2] at stopped

theorem Atomic.of_archive {account : Account Content} {files after : Files Content}
    (same : files .archive = after .archive) (atomic : Atomic initial account files) :
    Atomic initial account after :=
  { atomic with kept := atomic.kept.imp_right same.symm.trans }

abbrev Verdict (initial : Files Content) (account : Account Content) (files : Files Content) :
    Prop :=
  Atomic initial account files ↔ (account.missed = true → account.late = true)

theorem Undone.verdict {account : Account Content} {files : Files Content}
    (undone : Undone initial account files) : Verdict initial account files :=
  iff_of_true undone.atomic fun missed => by simp [undone.1.missed] at missed

theorem verdict_local (account : Account Content) (files after : Files Content)
    (same : files .archive = after .archive) (verdict : Verdict initial account files) :
    Verdict initial account after :=
  ⟨fun atomic => verdict.mp (atomic.of_archive same.symm),
    fun steady => (verdict.mpr steady).of_archive same⟩

end States

/-! ## Assertions about accounts -/

section Rules

variable [DecidableEq Content] {initial : Files Content}

/-- What holds of the account so far and of the files. -/
def On (holds : Account Content → Files Content → Prop)
    (past : Past (calls shell) (Files Content)) (files : Files Content) : Prop :=
  holds (accountOf past) files

/-- The script ends where `holds`. -/
abbrev EndsIn (holds : Account Content → Files Content → Prop) (script : Script shell)
    (past : Past (calls shell) (Files Content)) (files : Files Content) : Prop :=
  Ends (dayDirectory Content) (On holds) script past files

def Stable (handler : Script shell) (holds : Account Content → Files Content → Prop) : Prop :=
  ∀ past files, On holds past files → EndsIn holds handler past files

theorem stable_tidy {slots : List Slot} {holds : Account Content → Files Content → Prop}
    (kept : ∀ account files after, holds account files → Tidied slots files after →
      holds account after) : Stable (act (Cleanup.tidy slots)) holds := by
  intro past files now
  refine ends_act fun after step => ?_
  exact kept _ files after now step

variable {holds : Account Content → Files Content → Prop}
  {past : Past (calls shell) (Files Content)} {files : Files Content} {handler : Script shell}

/-- A trapped command of which only the value matters. -/
theorem endsIn_trapped (command : Command) {next : command.Value → Script shell}
    (keeps : command.Value → Account Content → Files Content → Prop)
    (stable : ∀ value, Stable handler (keeps value))
    (starts : ∀ (reply : Reply command.Value) after, Leaves files (.run command) reply after →
      keeps reply.value ((accountOf past).note files after (.run command) reply) after)
    (goes : ∀ value past files, On (keeps value) past files →
      EndsIn holds (next value) past files) :
    EndsIn holds (trapped handler (command : shell.Command) next) past files :=
  ends_trapped (fun reply => On (keeps reply.value)) starts (fun reply => stable reply.value)
    fun reply => goes reply.value

theorem endsIn_untrapped (command : Command) {next : command.Value → Script shell}
    (dies : ∀ (reply : Reply command.Value) after, Leaves files (.run command) reply after →
      0 < reply.signals →
        holds ((accountOf past).note files after (.run command) reply) after)
    (goes : ∀ (reply : Reply command.Value) after since,
      Leaves files (.run command) reply after → reply.signals = 0 →
        accountOf since = (accountOf past).note files after (.run command) reply →
        EndsIn holds (next reply.value) since after) :
    EndsIn holds (untrapped (command : shell.Command) next) past files :=
  ends_untrapped dies fun reply after step quiet => goes reply after _ step quiet rfl

/-! ## Before the `mv` -/

def Command.quiet : Command → Bool
  | .rename => false
  | .print report => !report.isOk
  | .build slot => slot ≠ .archive
  | .remove slots => .archive ∉ slots
  | _ => true

theorem Calm.run {command : Command} {account : Account Content} {files after : Files Content}
    {reply : Reply command.Value} (calm : Calm initial account files)
    (leaves : Leaves files (.run command) reply after) (quiet : command.quiet = true) :
    Calm initial (account.note files after (.run command) reply) after := by
  have same : after .archive = files .archive := by
    cases command with
    | build slot =>
        have other : slot ≠ .archive := by simpa [Command.quiet] using quiet
        exact leaves.1 .archive (Ne.symm other)
    | schema => exact leaves.1 .archive (by decide)
    | compress => exact leaves.1
    | test | entries => rw [leaves.1]
    | rename => simp [Command.quiet] at quiet
    | remove slots => exact Tidied.archive leaves (by simpa [Command.quiet] using quiet)
    | _ => rw [show after = files from leaves]
  have archive : after .archive = initial .archive := same.trans calm.archive
  rcases calm with ⟨_, complete, moved, missed, late, said⟩
  cases command with
  | rename => simp [Command.quiet] at quiet
  | print report =>
      constructor <;> simp_all [Account.note, Command.quiet]
  | _ => constructor <;> simp_all [Account.note, Account.hear]

theorem endsIn_giveUp {calm : Account Content → Files Content → Prop}
    {report : Report} (stable : Stable handler calm)
    (prints : ∀ account files (reply : Reply Unit), calm account files →
      calm (account.note files files (.run (.print report)) reply) files)
    (exits : ∀ past files, On calm past files → EndsIn holds handler past files)
    (now : On calm past files) : EndsIn holds (giveUp handler report) past files := by
  refine endsIn_trapped (.print report) (fun _ => calm) (fun _ => stable) ?_ ?_
  · intro reply after leaves
    rw [show after = files from leaves]
    exact prints _ files reply now
  · exact fun _ past files => exits past files

/-! ## From the `mv` on -/

/-- Whether the recipe is killed now or prints its status. -/
structure Settled (holds : Account Content → Files Content → Prop) (account : Account Content)
    (files : Files Content) : Prop where
  tried : (account.moved || account.missed) = true
  killed : holds { account with late := true } files
  told : holds { account with said := true } files

theorem settled_passes (command : Command) {next : command.Value → Script shell}
    (hears : ∀ (account : Account Content) before after (reply : Reply command.Value),
      account.note before after (.run command) reply = account.hear reply.signals)
    (still : ∀ (reply : Reply command.Value) after, Leaves files (.run command) reply after →
      after = files)
    (settled : On (Settled holds) past files)
    (goes : ∀ value past, On (Settled holds) past files →
      EndsIn holds (next value) past files) :
    EndsIn holds (untrapped (command : shell.Command) next) past files := by
  refine endsIn_untrapped command ?_ ?_
  · intro reply after leaves some_
    rw [still reply after leaves, hears, Account.hear_signals settled.tried some_]
    exact settled.killed
  · intro reply after since leaves quiet same
    rw [still reply after leaves]
    rw [hears, quiet, Account.hear_zero] at same
    refine goes reply.value since ?_
    rw [On, same]
    exact settled

theorem settled_prints {report : Report} (ok : report.isOk = true)
    (settled : On (Settled holds) past files) :
    EndsIn holds (untrapped (Command.print report : shell.Command) fun _ => .done ()) past
      files := by
  have told : holds { accountOf past with said := (accountOf past).said || report.isOk } files := by
    simpa [ok] using settled.told
  refine endsIn_untrapped (.print report) ?_ ?_
  · intro reply after leaves _
    rw [show after = files from leaves]
    exact told
  · intro reply after since leaves _ same
    refine ends_done ?_
    rw [On, same, show after = files from leaves]
    exact told

/-! ## The file that is built -/

/-- What is built with success is sound. -/
theorem held_build {slot : Slot} {account : Account Content} {files after : Files Content}
    {reply : Reply Nat} (leaves : Leaves files (.run (.build slot)) reply after)
    (success : reply.value = 0) :
    Held slot (account.note files after (.run (.build slot)) reply) after := by
  rcases Option.ne_none_iff_exists'.mp (leaves.2 success) with ⟨content, there⟩
  exact ⟨content, by simp [Account.note, success, there], .inl there⟩

theorem check_held {slot : Slot} {account : Account Content} {files : Files Content}
    (held : Held slot account files) (there : files slot ≠ none) :
    account.check true (files slot) = account.sound ∧ files slot = account.sound := by
  rcases held with ⟨content, sound, here⟩
  rcases here with same | gone
  · simp [Account.check, same, sound]
  · exact absurd gone there

theorem note_stopped {command : Command} {account : Account Content}
    {before after : Files Content} {reply : Reply command.Value} (other : command ≠ .stop) :
    (account.note before after (.run command) reply).stopped = account.stopped := by
  cases command with
  | stop => exact absurd rfl other
  | rename =>
      simp only [Account.note]
      split <;> rfl
  | _ => rfl

theorem Undone.run {command : Command} {account : Account Content} {files after : Files Content}
    {reply : Reply command.Value} (undone : Undone initial account files)
    (leaves : Leaves files (.run command) reply after) (quiet : command.quiet = true)
    (other : command ≠ .stop) :
    Undone initial (account.note files after (.run command) reply) after :=
  ⟨undone.1.run leaves quiet, (note_stopped other).trans undone.2⟩

theorem Held.passed {slot : Slot} {account checked : Account Content}
    {files after : Files Content} (held : Held slot account files) (there : files slot ≠ none)
    (passes : checked.sound = account.check true (files slot))
    (same : after slot = files slot) : Held slot checked after := by
  have result := check_held held there
  rcases held with ⟨content, sound, _⟩
  exact ⟨content, (passes.trans result.1).trans sound, .inl (same.trans (result.2.trans sound))⟩

/-- The `mv` of a recipe that builds a sound archive: it is renamed, or nothing is. -/
theorem settled_rename {account : Account Content} {files after : Files Content}
    {reply : Reply Bool} (undone : Undone initial account files)
    (held : Held .building account files) (leaves : Leaves files (.run .rename) reply after) :
    Settled (fun account files => Atomic initial account files ↔
        (account.missed = true → account.late = true))
      (account.note files after (.run .rename) reply) after := by
  rcases undone with ⟨⟨archive, complete, moved, missed, late, said⟩, stopped⟩
  cases renamed : reply.value with
  | true =>
      simp only [Leaves, renamed, if_true] at leaves
      have sound := (check_held held leaves.1).2
      constructor
      · simp [Account.note, renamed]
      · simp only [Account.note, renamed, if_true, missed]
        simp
        constructor
        · simp [said]
        · simp [sound]
        · simp [stopped]
      · simp only [Account.note, renamed, if_true, missed]
        simp
        constructor
        · simp [sound]
        · simp [sound]
        · simp [stopped]
  | false =>
      simp only [Leaves, renamed, Bool.false_eq_true, if_false] at leaves
      subst leaves
      constructor
      · simp [Account.note, renamed]
      · simp only [Account.note, renamed, Bool.false_eq_true, if_false]
        simp
        constructor
        · simp [said]
        · simp [archive]
        · simp [stopped]
      · simp only [Account.note, renamed, Bool.false_eq_true, if_false]
        simp [late]
        intro atomic
        simpa [complete] using atomic.told rfl

end Rules

end Homelab.Backup
