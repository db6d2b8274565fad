import Homelab.NfsMount.Host

/-! # What the supervisor mounts over

Before it mounts, the supervisor looks for the mount point in what `/sbin/mount`
prints. It sees the lines of one shape only.
-/

namespace Homelab.NfsMount

open Effects Text

/-! ## Lines of the mount list -/

/-- The line shows a filesystem, whatever its source and kind, that is mounted at the
target. -/
def Shows (line : Line) (target : String) : Prop :=
  ∃ source spelling rest : Line,
    line = source ++ " on ".toList ++ spelling ++ " (".toList ++ rest ∧
    SamePath (.ofList spelling) target

def Vacant (output target : String) : Prop :=
  ∀ line ∈ splitlines output, ¬Shows line target

/-- The line shows an NFS mount as the supervisor expects it: a source of two parts
without white space, and the target exactly as it is configured. -/
def Plain (line : Line) (target : String) : Prop :=
  ∃ host path tail : Line,
    line = host ++ ':' :: path ++ " on ".toList ++ target.toList ++ tail ∧
    host ≠ [] ∧ path ≠ [] ∧ (∀ char ∈ host ++ ':' :: path, isSpace char = false) ∧
    isNfs tail = true ∧ ∀ rest, rest <:+ tail.drop 1 → isNfs rest = false

/-- Where the list shows a filesystem at an export's mount point, one of its lines
shows an NFS mount there as the supervisor expects it. -/
def Legible (output : String) : Prop :=
  ∀ name : Export, (∃ line ∈ splitlines output, Shows line name.target) →
    ∃ line ∈ splitlines output, Plain line name.target

theorem longest_eq_none {text : List Char}
    (never : ∀ rest, rest <:+ text → isNfs rest = false) : longest text = none := by
  induction text with
  | nil => rfl
  | cons char rest induction =>
      have later : longest rest = none :=
        induction fun more tail => never more (tail.trans (List.suffix_cons _ _))
      rw [longest, later, never _ List.suffix_rfl]
      rfl

theorem longest_append (front : List Char) {tail : List Char} (nfs : isNfs tail = true)
    (last : ∀ rest, rest <:+ tail.drop 1 → isNfs rest = false) :
    longest (front ++ tail) = some front := by
  induction front with
  | nil =>
      cases tail with
      | nil => cases nfs
      | cons char rest =>
          have none : longest rest = none := longest_eq_none last
          rw [List.nil_append, longest, none]
          exact if_pos nfs
  | cons char rest induction => rw [List.cons_append, longest, induction]

theorem isSource_append {host path : List Char} (hostNonempty : host ≠ [])
    (pathNonempty : path ≠ []) : isSource (host ++ ':' :: path) = true := by
  rcases List.exists_cons_of_ne_nil hostNonempty with ⟨char, rest, rfl⟩
  have colon : (rest ++ ':' :: path).dropLast = rest ++ ':' :: path.dropLast := by
    rw [List.dropLast_append_of_ne_nil (by simp),
      List.dropLast_cons_of_ne_nil pathNonempty]
  rw [isSource, List.cons_append, List.drop_succ_cons, List.drop_zero, colon]
  simp

/-- A plain line is recognised. -/
theorem matchMount_of_plain {line : Line} {target : String} (plain : Plain line target)
    (nonempty : target ≠ "") :
    ∃ source, matchMount line = some (target.toList, source) := by
  rcases plain with
    ⟨host, path, tail, text, hostNonempty, pathNonempty, solid, nfs, last⟩
  have word : line.takeWhile (fun char => !isSpace char) = host ++ ':' :: path := by
    rw [text, List.append_assoc, List.append_assoc,
      List.takeWhile_append_of_pos fun char member => by simp [solid char member]]
    simp [isSpace]
  have rest : line.dropWhile (fun char => !isSpace char) =
      ' ' :: 'o' :: 'n' :: ' ' :: (target.toList ++ tail) := by
    rw [text, List.append_assoc, List.append_assoc,
      List.dropWhile_append_of_pos fun char member => by simp [solid char member]]
    simp [isSpace]
  have chars : target.toList ≠ [] := by simpa using nonempty
  rcases List.exists_cons_of_ne_nil chars with ⟨char, others, split⟩
  have found := longest_append others nfs last
  refine ⟨host ++ ':' :: path, ?_⟩
  simp only [matchMount, word, rest, isSource_append hostNonempty pathNonempty, split,
    List.cons_append, List.drop_succ_cons, List.drop_zero, found, Option.map_some]
  rfl

theorem lookup_isSome_of_plain {output : String} {name : Export}
    (plain : ∃ line ∈ splitlines output, Plain line name.target) :
    ((readMounts output).lookup name.target.toList).isSome = true := by
  rcases plain with ⟨line, member, plain⟩
  have named : name.target ≠ "" := by cases name <;> decide
  rcases matchMount_of_plain plain named with ⟨source, matched⟩
  have listed : (name.target.toList, source) ∈ readMounts output := by
    rw [readMounts, List.mem_reverse, List.mem_filterMap]
    exact ⟨line, member, matched⟩
  rw [List.lookup_isSome_iff]
  exact ⟨_, listed, beq_self_eq_true _⟩

/-! ## Runs -/

def Lists (operation : Operation) : Prop :=
  ∃ timeout, operation = .launch mountList timeout

def LastListing (completed : Completed) (past : Past interface World) : Prop :=
  ∃ newer before timeout after older,
    past = newer ++ ⟨before, .launch mountList timeout, .finished completed, after⟩ ::
      older ∧ ∀ moment ∈ newer, ¬Lists moment.operation

/-- Nothing is mounted but where the latest mount list shows nothing. -/
def Careful (past : Past interface World) (moment : Moment interface World) : Prop :=
  ∀ (name : Export) source timeout,
    moment.operation = .launch (mountNfs source name.target) timeout →
    ∃ completed, LastListing completed past ∧ completed.returncode = 0 ∧
      Vacant completed.stdout name.target

def NoOvermount {cfg : Config} {world : World} (run : SupervisorRun cfg world) : Prop :=
  ∀ earlier moment later, run.moments = earlier ++ moment :: later →
    Careful (earlier.reverse ++ run.past) moment

/-- If it is a mount list that was printed to its end, it is legible. -/
def LegibleListing (moment : Moment interface World) : Prop :=
  ∀ before timeout completed after,
    moment = ⟨before, .launch mountList timeout, .finished completed, after⟩ →
    completed.returncode = 0 → Legible completed.stdout

/-- Careful, as far as what was listed before could be read. -/
def Attentive (past : Past interface World) (moment : Moment interface World) : Prop :=
  (∀ earlier ∈ past, LegibleListing earlier) → Careful past moment

section

variable {cfg : Config} {past : Past interface World} {world : World} {α β : Type}

def Harmless (command : Command) : Prop :=
  ∀ source target, command ≠ mountNfs source target

abbrev Attends (attempt : Py α) (past : Past interface World) (world : World) : Prop :=
  Attempt.Guarded system Attentive (fun _ _ _ => True) (fun _ _ _ => True) attempt past
    world

theorem attentive_of_ne {moment : Moment interface World}
    (other : ∀ source target timeout,
      moment.operation ≠ .launch (mountNfs source target) timeout) :
    Attentive past moment :=
  fun _ name source timeout same => absurd same (other source name.target timeout)

theorem harmless_keeps {inv : Past interface World → World → Prop}
    (kept : ∀ past world operation answer after, Uses Harmless operation →
      system.Step world operation answer after → inv past world →
      inv (⟨world, operation, answer, after⟩ :: past) after) :
    Keeps system (Uses Harmless) Attentive inv := by
  intro past world operation answer after uses step holds
  refine ⟨attentive_of_ne ?_, kept past world operation answer after uses step holds⟩
  rintro source target timeout rfl
  exact uses source target rfl

theorem harmless_keeps_true :
    Keeps system (Uses Harmless) Attentive (fun _ _ => True) :=
  harmless_keeps fun _ _ _ _ _ _ _ _ => trivial

theorem attends_of_within {attempt : Py α} (within : attempt.Within (Uses Harmless)) :
    Attends attempt past world :=
  within.guarded harmless_keeps_true trivial

theorem Attends.bind {attempt : Py α} {next : α → Py β}
    (first : Attends attempt past world)
    (second : ∀ past world result, Attends (next result) past world) :
    Attends (attempt >>= next) past world :=
  Attempt.bind first fun past world result _ => second past world result

/-- `mount_nfs` is the only command of five words. -/
theorem harmless_of_length {command : Command} (length : command.length ≠ 5) :
    Harmless command := by
  rintro source target rfl
  exact length rfl

/-- After the mount list, only the target that it does not show is mounted. -/
theorem mounting_keeps {completed : Completed} (source target : String)
    (ended : completed.returncode = 0)
    (absent : ((readMounts completed.stdout).lookup target.toList).isSome = false) :
    Keeps system (Uses fun command => command = mkdir target ∨
      command = mountNfs source target) Attentive
      (fun past _ => LastListing completed past) := by
  intro past world operation answer after uses step listing
  constructor
  · rintro legible name origin timeout rfl
    refine ⟨completed, listing, ended, ?_⟩
    have here : name.target = target := by
      rcases uses with impossible | same
      · simp [mountNfs, mkdir] at impossible
      · simp only [mountNfs, List.cons.injEq] at same
        exact same.2.2.2.2.1
    intro line member shown
    rcases listing with ⟨newer, before, timeout', after', older, split, _⟩
    have read := legible ⟨before, .launch mountList timeout', .finished completed, after'⟩
      (by simp [split]) _ _ _ _ rfl ended
    have seen := lookup_isSome_of_plain (read name ⟨line, member, here ▸ shown⟩)
    rw [here, absent] at seen
    cases seen
  · rcases listing with ⟨newer, before, timeout', after', older, split, none⟩
    refine ⟨_ :: newer, before, timeout', after', older, by rw [split]; rfl, ?_⟩
    refine List.forall_mem_cons.mpr ⟨?_, none⟩
    rintro ⟨timeout, rfl⟩
    rcases uses with impossible | impossible <;>
      simp [mountList, mkdir, mountNfs] at impossible

theorem mountedSources_attends :
    Attempt.Guarded system Attentive
      (fun past _ sources => ∀ mounted, sources = some mounted →
        ∃ completed, LastListing completed past ∧ completed.returncode = 0 ∧
          readMounts completed.stdout = mounted)
      (fun _ _ _ => True) mountedSources past world := by
  apply Attempt.bind (run_guarded harmless_keeps_true (harmless_of_length (by decide))
    (fun _ _ _ _ => trivial) trivial)
  rintro past world result ⟨_, finished⟩
  split
  · rintro mounted impossible
    cases impossible
  · rename_i ended
    rintro mounted equal
    rcases finished (not_not.mp ended) with ⟨before, after, older, split⟩
    refine ⟨result, ⟨[], before, 10, after, older, split, by simp⟩, not_not.mp ended, ?_⟩
    exact Option.some.inj equal

theorem remount_attends (source target : String) :
    Attends (remount source target) past world := by
  apply Attempt.bind mountedSources_attends
  intro past₁ world₁ sources listed
  cases sources with
  | none => trivial
  | some mounted =>
      rcases listed mounted rfl with ⟨completed, listing, ended, read⟩
      dsimp only
      split
      · trivial
      · next absent =>
          rw [← read, Bool.not_eq_true] at absent
          have keeps := mounting_keeps source target ended absent
          apply Attempt.bind (run_guarded keeps (.inl rfl) (fun _ _ _ _ => trivial) listing)
          rintro past₂ world₂ made ⟨listing, _⟩
          split
          · trivial
          · exact Attempt.bind
              (run_guarded keeps (.inr rfl) (fun _ _ _ _ => trivial) listing)
              fun _ _ _ _ => trivial

theorem recover_attends (source target : String) (action : Action) :
    Attends (recover source target action) past world := by
  unfold recover
  split
  · apply Attends.bind (attends_of_within (unmount_within (harmless_of_length (by simp [umount]))
      (harmless_of_length (by simp [diskutil]))))
    intro past₁ world₁ unmounted
    split
    · exact remount_attends source target
    · trivial
  · exact remount_attends source target

theorem recoverWithWorker_attends (source target : String) (action : Action) :
    Attends (recoverWithWorker source target action) past world := by
  apply Attends.bind (attends_of_within (stopFor_within
    (fun _ => harmless_of_length (by simp [launchctlPrint]))
    (fun _ => harmless_of_length (by simp [bootout])) target action))
  intro past₁ world₁ stopped
  cases stopped with
  | none => trivial
  | some domain =>
      apply Attends.bind (Attempt.outcome_iff.mpr
        (Guarded.post_mono (recover_attends source target action) fun _ _ _ _ => trivial))
      intro past₂ world₂ outcome
      apply Attends.bind (attends_of_within (resumeWorker_within
        (fun _ => harmless_of_length (by simp [bootstrap])) domain))
      intro past₃ world₃ resumed
      apply Attends.bind
      · cases outcome <;> trivial
      · exact fun _ _ _ => trivial

theorem attempt_attends (ip : String) (name : Export) (action : Action) (item : Item)
    (record : Record) :
    Attends (attempt cfg ip name action item record) past world := by
  apply ask_bind.mpr
  intro answer₁ world₁ _
  refine ⟨attentive_of_ne nofun, ask_bind.mpr ?_⟩
  intro now world₂ _
  refine ⟨attentive_of_ne nofun, ?_⟩
  apply Attends.bind (recoverWithWorker_attends _ _ _)
  intro past₃ world₃ mounted
  apply Attends.bind (attends_of_within (settle_within (harmless_of_length (by decide))
    (fun _ _ => harmless_of_length (by simp [readProbeCommand])) _ _ _))
  intro past₄ world₄ item
  exact Attends.bind (attends_of_within (stampRead_steady trivial _ _).within) fun _ _ _ => trivial

theorem attend_attends (source : String) (name : Export) (item : Item) (record : Record) :
    Attends (attend cfg source name item record) past world := by
  apply Attends.bind (attends_of_within (stampRead_steady trivial _ _).within)
  intro past₁ world₁ record
  apply ask_bind.mpr
  intro now world₂ _
  refine ⟨attentive_of_ne nofun, ?_⟩
  split
  · trivial
  · exact attempt_attends _ _ _ _ _

theorem supervise_attends (history : PerExport Record) :
    Attends (supervise cfg history) past world := by
  apply Attends.bind (attends_of_within (inspect_within (harmless_of_length (by decide))
    (harmless_of_length (by decide))
    (fun _ => harmless_of_length (by simp [readProbeCommand]))))
  intro past₁ world₁ exports
  apply Attends.bind (attends_of_within (sourceFor_within
    (fun _ => harmless_of_length (by simp [netcat])) exports))
  intro past₂ world₂ source
  apply Attends.bind (attend_attends _ _ _ _)
  intro past₃ world₃ srv
  apply Attends.bind (attend_attends _ _ _ _)
  intro past₄ world₄ generated
  exact Attends.bind (attends_of_within (publish_within
    (harmless_of_length (by simp [publishCommand])) _)) fun _ _ _ => trivial

end

/-- The supervisor mounts nothing over what a mount list shows, in every run in which
the mount lists show it in the form that is recognised. -/
theorem no_overmount {cfg : Config} {world : World} (run : SupervisorRun cfg world)
    (legible : ∀ moment ∈ run.trace, LegibleListing moment) : NoOvermount run := by
  have maintains : Maintains system (supervise cfg) (fun _ _ _ => True) Attentive :=
    fun _ history _ _ => supervise_attends history
  intro earlier moment later split
  apply run.good_of maintains trivial split
  exact fun before member => legible before (LoopRun.mem_trace split member)

def listing (output : String) : Script := fun command =>
  exits 0 (if command = mountList then output else "")

def listed (output : String) : SupervisorRun pilotConfig pilotWorld :=
  follow .begin (listing output)

theorem listed_lists {output : String} : ∀ moment ∈ (listed output).trace,
    ∀ before timeout completed after,
      moment = ⟨before, .launch mountList timeout, .finished completed, after⟩ →
      completed.stdout = output := by
  apply simulate_each
  rintro past world operation before timeout completed after same
  cases operation with
  | launch command timeout' =>
      injection same with _ launched answered
      cases launched
      cases answered
      simp
  | _ => injection same with _ launched; cases launched

theorem no_overmount_emptyList : NoOvermount (listed "") := by
  apply no_overmount
  intro moment member before timeout completed after same _
  rw [listed_lists moment member before timeout completed after same]
  rintro name ⟨line, impossible, _⟩
  cases impossible

def smbList : String :=
  "//operator@nas/srv on /Volumes/homelab-srv (smbfs, nodev, nosuid, mounted by operator)\n"

/-- The share is there, but not as an NFS mount. -/
theorem smb_shown : ¬Vacant smbList Export.srv.target := by
  intro vacant
  apply vacant _ (List.mem_singleton.mpr rfl : _ ∈ splitlines smbList)
  exact ⟨"//operator@nas/srv".toList, "/Volumes/homelab-srv".toList,
    "smbfs, nodev, nosuid, mounted by operator)".toList, by decide, by decide⟩

theorem smb_mounted : ∃ moment ∈ (listed smbList).moments, moment.operation =
    .launch (mountNfs "192.0.2.100:/srv" Export.srv.target) 30 := by
  decide +kernel

/-- A mount list that shows the share as an SMB mount does not stop the supervisor. -/
theorem overmounts_smb :
    ∃ run : SupervisorRun pilotConfig pilotWorld, ¬NoOvermount run := by
  refine ⟨listed smbList, fun careful => ?_⟩
  rcases smb_mounted with ⟨moment, member, mounts⟩
  rcases List.append_of_mem member with ⟨earlier, later, split⟩
  rcases careful earlier moment later split .srv _ _ mounts with
    ⟨completed, ⟨newer, before, timeout, after, older, past, _⟩, _, vacant⟩
  have printed : completed.stdout = smbList := by
    apply listed_lists _ (LoopRun.mem_trace split _) before timeout completed after rfl
    rw [past]
    simp
  exact smb_shown (printed ▸ vacant)

end Homelab.NfsMount
