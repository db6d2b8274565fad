import Homelab.Backup.Account

/-! # Recipes that clean up after themselves

`backup-tar.sh`, `backup-pg_dump.sh` and `backup-sqlite.sh`. Their handler removes what was
built.
-/

namespace Homelab.Backup

open Effects Effects.Trap Text

variable {Content : Type}

variable [DecidableEq Content] {initial : Files Content}
  {holds : Account Content → Files Content → Prop}
  {past : Past (calls shell) (Files Content)} {files : Files Content} {handler : Script shell}

/-! ## Archives -/

theorem undone_stable {slots : List Slot} (spared : .archive ∉ slots) :
    Stable (act (Cleanup.tidy slots)) (Undone initial) :=
  stable_tidy fun _ _ _ undone tidied => undone.tidied tidied spared

/-- A command that has nothing to do with the archive. -/
theorem endsIn_undone (command : Command) {next : command.Value → Script shell}
    (stable : Stable handler (Undone initial)) (quiet : command.quiet = true)
    (other : command ≠ .stop) (undone : On (Undone initial) past files)
    (goes : ∀ value past files, On (Undone initial) past files →
      EndsIn holds (next value) past files) :
    EndsIn holds (trapped handler (command : shell.Command) next) past files :=
  endsIn_trapped command (fun _ => Undone initial) (fun _ => stable)
    (fun _ _ leaves => undone.run leaves quiet other) goes

theorem endsIn_undone_giveUp {report : Report}
    (stable : Stable handler (Undone initial)) (fails : report.isOk = false)
    (ends : ∀ account files, Undone initial account files → holds account files)
    (undone : On (Undone initial) past files) :
    EndsIn holds (giveUp handler report) past files :=
  endsIn_giveUp stable
    (fun _ _ _ undone => @Undone.run _ _ initial (.print report) _ _ _ _ undone rfl
      (by simp [Command.quiet, fails]) (by simp))
    (fun past files undone => (stable past files undone).post_mono fun _ files _ => ends _ files)
    undone

/-- Files are removed, the time is taken and a failure is printed. -/
theorem endsIn_undone_removal {slots : List Slot} {report : Int → Report}
    (stable : Stable handler (Undone initial)) (spared : .archive ∉ slots)
    (fails : ∀ now, (report now).isOk = false)
    (ends : ∀ account files, Undone initial account files → holds account files)
    (undone : On (Undone initial) past files) :
    EndsIn holds
      (trapped handler (Command.remove slots : shell.Command) fun _ =>
        trapped handler (Command.milliseconds : shell.Command) fun (now : Int) =>
          giveUp handler (report now)) past files := by
  refine endsIn_undone (.remove slots) stable (by simpa [Command.quiet] using spared) (by simp)
    undone ?_
  intro _ past files undone
  refine endsIn_undone .milliseconds stable rfl (by simp) undone ?_
  intro now past files undone
  exact endsIn_undone_giveUp stable (fails now) ends undone

def Built (initial : Files Content) (slot : Slot) (success : Prop) (account : Account Content)
    (files : Files Content) : Prop :=
  Undone initial account files ∧ (success → Held slot account files)

theorem built_stable {slot : Slot} {success : Prop} {slots : List Slot}
    (spared : .archive ∉ slots) :
    Stable (act (Cleanup.tidy slots)) (Built initial slot success) :=
  stable_tidy fun _ _ _ built tidied =>
    ⟨built.1.tidied tidied spared, fun success => (built.2 success).tidied tidied⟩

/-- After the `mv` only the archive counts. -/
theorem settled_stable {slots : List Slot} (spared : .archive ∉ slots)
    (local_ : ∀ account files after, files .archive = after .archive →
      holds account files → holds account after) :
    Stable (act (Cleanup.tidy slots)) (Settled holds) :=
  stable_tidy fun _ files after settled tidied =>
    have same : files .archive = after .archive := (tidied.archive spared).symm
    { tried := settled.tried
      killed := local_ _ files after same settled.killed
      told := local_ _ files after same settled.told }

theorem tar_verdict (service : Line) (undone : On (Undone initial) past files) :
    EndsIn (Verdict initial) (tarRecipe service) past files := by
  have stable : Stable (act (Cleanup.tidy [.building])) (Undone initial) :=
    undone_stable (by decide)
  dsimp only [tarRecipe]
  refine endsIn_untrapped .makeDirectory
    (fun _ _ leaves _ => (undone.run leaves rfl (by simp)).verdict) ?_
  intro _ after since leaves _ same
  have undone : On (Undone initial) since after := by
    rw [On, same]
    exact undone.run leaves rfl (by simp)
  refine endsIn_undone .milliseconds stable rfl (by simp) undone ?_
  intro startMs past files undone
  refine endsIn_trapped (.build .building)
    (fun (rc : Nat) => Built initial .building (rc = 0)) (fun _ => built_stable (by decide)) ?_ ?_
  · exact fun reply after leaves =>
      ⟨undone.run leaves rfl (by simp), fun success => held_build leaves success⟩
  intro (rc : Nat) past files built
  refine endsIn_trapped .milliseconds
    (fun _ => Built initial .building (rc = 0)) (fun _ => built_stable (by decide)) ?_ ?_
  · intro reply after leaves
    rw [show after = files from leaves]
    exact ⟨built.1.run rfl rfl (by simp), built.2⟩
  intro now past files built
  by_cases success : rc = 0
  · simp only [success, ne_eq, not_true, if_false]
    refine endsIn_trapped (.entries 1)
      (fun (entries : Int) => Built initial .building (1 ≤ entries))
      (fun _ => built_stable (by decide)) ?_ ?_
    · intro reply after leaves
      refine ⟨built.1.run leaves rfl (by simp), fun some_ => ?_⟩
      have there : files .building ≠ none := by
        intro gone
        have zero := leaves.2.2 gone
        omega
      exact (built.2 success).passed there (by simp [Account.note, some_]) (by rw [leaves.1])
    intro (entries : Int) past files built
    by_cases empty : entries < 1
    · rw [if_pos empty]
      exact endsIn_undone_giveUp stable rfl (fun _ _ undone => undone.verdict) built.1
    · rw [if_neg empty]
      refine endsIn_trapped .rename (fun _ => Settled (Verdict initial))
        (fun _ => settled_stable (by decide) verdict_local)
        (fun reply after leaves => settled_rename built.1 (built.2 (by omega)) leaves) ?_
      intro _ past files settled
      refine settled_passes .size (fun _ _ _ _ => rfl) (fun _ _ leaves => leaves) settled ?_
      intro bytes past settled
      refine settled_passes (.remove []) (fun _ _ _ _ => rfl) (fun _ _ => tidied_nil) settled ?_
      intro _ past settled
      exact settled_prints rfl settled
  · simp only [success, ne_eq, not_false_eq_true, if_true]
    refine endsIn_undone .errors stable rfl (by simp) built.1 ?_
    intro errors past files undone
    refine endsIn_undone (.remove []) stable rfl (by simp) undone ?_
    intro _ past files undone
    exact endsIn_undone_giveUp stable rfl (fun _ _ undone => undone.verdict) undone

theorem pgDump_verdict (service container dbName : Line)
    (undone : On (Undone initial) past files) :
    EndsIn (Verdict initial) (pgDumpRecipe service container dbName) past files := by
  have stable : Stable (act (Cleanup.tidy [.building])) (Undone initial) :=
    undone_stable (by decide)
  dsimp only [pgDumpRecipe]
  refine endsIn_untrapped .makeDirectory
    (fun _ _ leaves _ => (undone.run leaves rfl (by simp)).verdict) ?_
  intro _ after since leaves _ same
  have undone : On (Undone initial) since after := by
    rw [On, same]
    exact undone.run leaves rfl (by simp)
  refine endsIn_undone .ready stable rfl (by simp) undone ?_
  intro (ready : Bool) past files undone
  by_cases down : ready = false
  · rw [if_pos down]
    exact endsIn_undone_giveUp stable rfl (fun _ _ undone => undone.verdict) undone
  rw [if_neg down]
  refine endsIn_undone .milliseconds stable rfl (by simp) undone ?_
  intro startMs past files undone
  refine endsIn_trapped (.build .building) (fun (rc : Nat) => Built initial .building (rc = 0))
    (fun _ => built_stable (by decide)) ?_ ?_
  · exact fun reply after leaves =>
      ⟨undone.run leaves rfl (by simp), fun success => held_build leaves success⟩
  intro (rc : Nat) past files built
  by_cases success : rc = 0
  · simp only [success, ne_eq, not_true, if_false]
    refine endsIn_trapped .test (fun (sound : Bool) => Built initial .building (sound = true))
      (fun _ => built_stable (by decide)) ?_ ?_
    · intro reply after leaves
      refine ⟨built.1.run leaves rfl (by simp), fun passes => ?_⟩
      exact (built.2 success).passed (leaves.2 passes) (by simp [Account.note, passes])
        (by rw [leaves.1])
    intro (sound : Bool) past files built
    by_cases corrupt : sound = false
    · rw [if_pos corrupt]
      exact endsIn_undone_removal stable (by decide) (fun _ => rfl)
        (fun _ _ undone => undone.verdict) built.1
    · rw [if_neg corrupt]
      refine endsIn_trapped .rename (fun _ => Settled (Verdict initial))
        (fun _ => settled_stable (by decide) verdict_local)
        (fun reply after leaves => settled_rename built.1 (built.2 (by simpa using corrupt))
          leaves) ?_
      intro _ past files settled
      refine settled_passes .milliseconds (fun _ _ _ _ => rfl) (fun _ _ leaves => leaves)
        settled ?_
      intro now past settled
      refine settled_passes .size (fun _ _ _ _ => rfl) (fun _ _ leaves => leaves) settled ?_
      intro bytes past settled
      refine settled_passes (.remove []) (fun _ _ _ _ => rfl) (fun _ _ => tidied_nil) settled ?_
      intro _ past settled
      exact settled_prints rfl settled
  · simp only [success, ne_eq, not_false_eq_true, if_true]
    refine endsIn_undone .errors stable rfl (by simp) built.1 ?_
    intro errors past files undone
    exact endsIn_undone_removal stable (by decide) (fun _ => rfl)
      (fun _ _ undone => undone.verdict) undone

/-! ## The database -/

abbrev CopyVerdict (initial : Files Content) (account : Account Content)
    (files : Files Content) : Prop :=
  Atomic initial account files ↔
    (account.missed = true → account.late = true) ∧
      (account.moved = true → account.blank = true →
        account.late = true ∧ account.repeated = true)

omit [DecidableEq Content] in
theorem Undone.copyVerdict {account : Account Content} {files : Files Content}
    (undone : Undone initial account files) : CopyVerdict initial account files :=
  iff_of_true undone.atomic ⟨fun missed => by simp [undone.1.missed] at missed,
    fun moved => by simp [undone.1.moved] at moved⟩

omit [DecidableEq Content] in
theorem copyVerdict_local (account : Account Content) (files after : Files Content)
    (same : files .archive = after .archive) (verdict : CopyVerdict initial account files) :
    CopyVerdict initial account after :=
  ⟨fun atomic => verdict.mp (atomic.of_archive same.symm),
    fun steady => (verdict.mpr steady).of_archive same⟩

/-- What was built goes back to the copy of the database, or to none at all. -/
def Traced (initial : Files Content) (slot : Slot) (success : Prop) (account : Account Content)
    (files : Files Content) : Prop :=
  Undone initial account files ∧
    (success → (Held slot account files ∧ account.blank = false) ∨
      (account.sound = none ∧ account.blank = true))

theorem traced_stable {slot : Slot} {success : Prop} {slots : List Slot}
    (spared : .archive ∉ slots) :
    Stable (act (Cleanup.tidy slots)) (Traced initial slot success) :=
  stable_tidy fun _ _ _ traced tidied =>
    ⟨traced.1.tidied tidied spared, fun success =>
      (traced.2 success).imp_left fun held => ⟨held.1.tidied tidied, held.2⟩⟩

/-- The `mv` of an archive that goes back to an empty database. -/
theorem settled_rename_blank {account : Account Content} {files after : Files Content}
    {reply : Reply Bool} (undone : Undone initial account files) (none_ : account.sound = none)
    (blank : account.blank = true) (leaves : Leaves files (.run .rename) reply after) :
    Settled (CopyVerdict initial) (account.note files after (.run .rename) reply) after := by
  rcases undone with ⟨⟨archive, complete, moved, missed, late, said⟩, stopped⟩
  cases renamed : reply.value with
  | true =>
      simp only [Leaves, renamed, if_true] at leaves
      rcases leaves with ⟨there, placed, _⟩
      constructor
      · simp [Account.note, renamed]
      · simp only [Account.note, renamed, if_true, none_, there, archive]
        constructor
        · intro atomic
          refine ⟨fun _ => rfl, fun _ _ => ⟨rfl, ?_⟩⟩
          simpa [placed] using atomic.kept
        · intro steady
          have repeated := of_decide_eq_true (steady.2 rfl blank).2
          exact ⟨fun told => by simp [said] at told, .inr (placed.trans repeated),
            fun stopped_ => by simp [stopped] at stopped_⟩
      · simp only [Account.note, renamed, if_true, none_, there]
        refine iff_of_false ?_ ?_
        · intro atomic
          simpa using atomic.told rfl
        · intro steady
          simpa [late] using (steady.2 rfl blank).1
  | false =>
      simp only [Leaves, renamed, Bool.false_eq_true, if_false] at leaves
      subst leaves
      constructor
      · simp [Account.note, renamed]
      · simp only [Account.note, renamed, Bool.false_eq_true, if_false]
        refine iff_of_true ?_ ⟨fun _ => rfl, fun moved_ => by simp [moved] at moved_⟩
        exact ⟨fun told => by simp [said] at told, .inr archive,
          fun stopped_ => by simp [stopped] at stopped_⟩
      · simp only [Account.note, renamed, Bool.false_eq_true, if_false]
        refine iff_of_false ?_ ?_
        · intro atomic
          simpa [complete] using atomic.told rfl
        · intro steady
          simpa [late] using steady.1 rfl

omit [DecidableEq Content] in
/-- The two verdicts agree where no schema was read of a copy that was gone. -/
theorem Settled.copy {account : Account Content} {files : Files Content}
    (settled : Settled (Verdict initial) account files) (blank : account.blank = false) :
    Settled (CopyVerdict initial) account files where
  tried := settled.tried
  killed := settled.killed.trans (by simp [blank])
  told := settled.told.trans (by simp [blank])

theorem note_blank {command : Command} {account : Account Content}
    {before after : Files Content} {reply : Reply command.Value} (other : command ≠ .schema) :
    (account.note before after (.run command) reply).blank = account.blank := by
  cases command with
  | schema => exact absurd rfl other
  | rename =>
      simp only [Account.note]
      split <;> rfl
  | _ => rfl

def Unread (initial : Files Content) (account : Account Content) (files : Files Content) :
    Prop :=
  Undone initial account files ∧ account.blank = false

theorem unread_stable {slots : List Slot} (spared : .archive ∉ slots) :
    Stable (act (Cleanup.tidy slots)) (Unread initial) :=
  stable_tidy fun _ _ _ unread tidied => ⟨unread.1.tidied tidied spared, unread.2⟩

theorem Unread.run {command : Command} {account : Account Content} {files after : Files Content}
    {reply : Reply command.Value} (unread : Unread initial account files)
    (leaves : Leaves files (.run command) reply after) (quiet : command.quiet = true)
    (other : command ≠ .stop) (closed : command ≠ .schema) :
    Unread initial (account.note files after (.run command) reply) after :=
  ⟨unread.1.run leaves quiet other, (note_blank closed).trans unread.2⟩

/-- The schema is read of the copy that was made, or of an empty one. -/
theorem traced_schema {account : Account Content} {files after : Files Content}
    {reply : Reply Bool} (undone : Undone initial account files)
    (held : Held .copy account files) (blank : account.blank = false)
    (leaves : Leaves files (.run .schema) reply after) :
    Traced initial .copy (reply.value = true) (account.note files after (.run .schema) reply)
      after := by
  refine ⟨undone.run leaves rfl (by simp), fun readable => ?_⟩
  by_cases gone : files .copy = none
  · right
    rcases held with ⟨content, sound, _⟩
    simp [Account.note, Account.check, gone, sound]
  · left
    refine ⟨held.passed gone (by simp [Account.note, readable]) (leaves.2 gone), ?_⟩
    simp [Account.note, gone, blank]

theorem traced_compress {account : Account Content} {files after : Files Content}
    {reply : Reply Nat} (traced : Traced initial .copy True account files)
    (leaves : Leaves files (.run .compress) reply after) :
    Traced initial .building (reply.value = 0)
      (account.note files after (.run .compress) reply) after := by
  refine ⟨traced.1.run leaves rfl (by simp), fun success => ?_⟩
  rcases leaves.2 success with ⟨there, made⟩
  rcases traced.2 trivial with ⟨held, blank⟩ | ⟨none_, blank⟩
  · left
    have same := (check_held held there).2
    rcases Option.ne_none_iff_exists'.mp made with ⟨content, is_⟩
    refine ⟨⟨content, ?_, .inl is_⟩, (note_blank (by simp)).trans blank⟩
    simp [Account.note, success, same, is_]
  · right
    refine ⟨?_, (note_blank (by simp)).trans blank⟩
    simp [Account.note, none_, there]

theorem sqlite_verdict (service dbPath : Line) (unread : On (Unread initial) past files) :
    EndsIn (CopyVerdict initial) (sqliteRecipe service dbPath) past files := by
  have stable : Stable (act (Cleanup.tidy [.copy, .building])) (Undone initial) :=
    undone_stable (by decide)
  have fails : ∀ (account : Account Content) files, Undone initial account files →
      CopyVerdict initial account files := fun _ _ undone => undone.copyVerdict
  dsimp only [sqliteRecipe]
  refine endsIn_untrapped .makeDirectory
    (fun _ _ leaves _ => (unread.1.run leaves rfl (by simp)).copyVerdict) ?_
  intro _ after since leaves _ same
  have unread : On (Unread initial) since after := by
    rw [On, same]
    exact unread.run leaves rfl (by simp) (by simp)
  refine endsIn_trapped .found (fun _ => Unread initial) (fun _ => unread_stable (by decide))
    (fun _ _ leaves => unread.run leaves rfl (by simp) (by simp)) ?_
  intro (found : Bool) past files unread
  by_cases missing : found = false
  · rw [if_pos missing]
    exact endsIn_undone_giveUp stable rfl fails unread.1
  rw [if_neg missing]
  refine endsIn_trapped .milliseconds (fun _ => Unread initial)
    (fun _ => unread_stable (by decide))
    (fun _ _ leaves => unread.run leaves rfl (by simp) (by simp)) ?_
  intro startMs past files unread
  refine endsIn_trapped (.build .copy)
    (fun (rc : Nat) account files =>
      Unread initial account files ∧ (rc = 0 → Held .copy account files)) (fun _ => ?_) ?_ ?_
  · exact stable_tidy fun _ _ _ copied tidied =>
      ⟨⟨copied.1.1.tidied tidied (by decide), copied.1.2⟩,
        fun success => (copied.2 success).tidied tidied⟩
  · exact fun reply after leaves =>
      ⟨unread.run leaves rfl (by simp) (by simp), fun success => held_build leaves success⟩
  intro (rc : Nat) past files copied
  by_cases success : rc = 0
  · simp only [success, ne_eq, not_true, if_false]
    refine endsIn_trapped .schema (fun (readable : Bool) => Traced initial .copy (readable = true))
      (fun _ => traced_stable (by decide))
      (fun _ _ leaves => traced_schema copied.1.1 (copied.2 success) copied.1.2 leaves) ?_
    intro (readable : Bool) past files traced
    by_cases unreadable : readable = false
    · rw [if_pos unreadable]
      exact endsIn_undone_removal stable (by decide) (fun _ => rfl) fails traced.1
    rw [if_neg unreadable]
    have traced : Traced initial .copy True (accountOf past) files :=
      ⟨traced.1, fun _ => traced.2 (by simpa using unreadable)⟩
    refine endsIn_trapped .compress (fun (rc : Nat) => Traced initial .building (rc = 0))
      (fun _ => traced_stable (by decide)) (fun _ _ leaves => traced_compress traced leaves) ?_
    intro (rc : Nat) past files traced
    by_cases compressed : rc = 0
    · simp only [compressed, not_true, if_false]
      refine endsIn_trapped .rename (fun _ => Settled (CopyVerdict initial))
        (fun _ => settled_stable (by decide) copyVerdict_local) ?_ ?_
      · intro reply after leaves
        rcases traced.2 compressed with ⟨held, blank⟩ | ⟨none_, blank⟩
        · exact (settled_rename traced.1 held leaves).copy ((note_blank (by simp)).trans blank)
        · exact settled_rename_blank traced.1 none_ blank leaves
      intro _ past files settled
      refine settled_passes .milliseconds (fun _ _ _ _ => rfl) (fun _ _ leaves => leaves)
        settled ?_
      intro now past settled
      refine settled_passes .size (fun _ _ _ _ => rfl) (fun _ _ leaves => leaves) settled ?_
      intro bytes past settled
      refine settled_passes (.remove []) (fun _ _ _ _ => rfl) (fun _ _ => tidied_nil) settled ?_
      intro _ past settled
      exact settled_prints rfl settled
    · simp only [compressed, not_false_eq_true, if_true]
      refine endsIn_undone .errors stable rfl (by simp) traced.1 ?_
      intro errors past files undone
      exact endsIn_undone_removal stable (by decide) (fun _ => rfl) fails undone
  · simp only [success, ne_eq, not_false_eq_true, if_true]
    refine endsIn_undone .errors stable rfl (by simp) copied.1.1 ?_
    intro errors past files undone
    exact endsIn_undone_removal stable (by decide) (fun _ => rfl) fails undone

end Homelab.Backup
