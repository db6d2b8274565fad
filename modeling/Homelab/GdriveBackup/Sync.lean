import Homelab.Foundation.Words

/-! # The off-site backup

`gdrive-sync.sh` mirrors the local backups to Google Drive. `rclone sync` deletes what the source
does not have, so an empty source must not get that far. What it publishes about itself is what a
stale or failing backup is noticed by.
-/

namespace Homelab.GdriveBackup

open Text

structure Config where
  source : String
  rclone : String
  log : String
  detailLog : String

/-- What one run finds and is answered. The texts are what `grep` finds in the outputs. -/
structure Env where
  started : Nat
  lockOpened : Bool
  locked : Bool
  agent : Bool
  summary : Bool
  rclone : Bool
  /-- The files of the source. -/
  files : List String
  syncRc : Nat
  observerRc : Nat
  bytes : String
  errors : String
  quotaTotal : String
  quotaUsed : String
  quotaFree : String
  remoteBytes : String
  remoteObjects : String
  finished : Nat
  stateWritten : Bool
  textfileDir : Bool
  textfileWritten : Bool
  /-- The two times that `emit` asks for. -/
  emitted : Nat
  measuredAt : Nat

structure Gauges where
  lastRun : String
  success : String
  duration : String
  transferredBytes : String
  errors : String
  lastSuccess : String
  exitCode : String
  quotaTotal : String
  quotaUsed : String
  quotaFree : String
  remoteBytes : String
  remoteObjects : String

structure Notice where
  title : String
  priority : String
  tags : String
  body : String

inductive Event
  | skip
  | abort (reason : String)
  | start (files : Nat)
  | observerFailed (rc : Nat)
  | stateWriteFailed
  | done (bytes : String)
  | failed (rc : Nat) (errors : String)

/-- What a run leaves. `synced` says that it came to `rclone sync`. -/
structure Outcome where
  exit : Nat
  published : Option Gauges
  synced : Bool
  lastSuccessFile : Option String
  events : List Event
  notices : List Notice

/-! ## The script -/

/-- `case "$text" in ''|*[!0-9]*) text=0`. -/
def digitsOrZero (text : String) : String :=
  if text ≠ "" ∧ ∀ char ∈ text.toList, char.isDigit = true then text else "0"

def remembered (file : Option String) : String := digitsOrZero ((file.map readWord).getD "0")

structure Known where
  rc : Nat
  success : Nat
  lastSuccess : String
  bytes : String
  errors : String
  quotaTotal : String
  quotaUsed : String
  quotaFree : String
  remoteBytes : String
  remoteObjects : String

def Known.initial (lastSuccess : String) : Known :=
  ⟨2, 0, lastSuccess, "0", "0", "0", "0", "0", "0", "0"⟩

def emit (env : Env) (known : Known) : Option Gauges :=
  if env.textfileDir && env.textfileWritten then
    some ⟨toString env.emitted, toString known.success,
      toString ((env.measuredAt : Int) - env.started), known.bytes, known.errors, known.lastSuccess,
      toString known.rc, known.quotaTotal, known.quotaUsed, known.quotaFree, known.remoteBytes,
      known.remoteObjects⟩
  else none

/-- `PIPESTATUS`: the exit code of the sync, or of the observer if that alone failed. -/
def Env.rc (env : Env) : Nat := if env.syncRc ≠ 0 then env.syncRc else env.observerRc

def Env.measured (env : Env) (lastSuccess : String) (success rc : Nat) : Known :=
  ⟨rc, success, lastSuccess, digitsOrZero env.bytes, digitsOrZero env.errors,
    digitsOrZero env.quotaTotal, digitsOrZero env.quotaUsed, digitsOrZero env.quotaFree,
    digitsOrZero env.remoteBytes, digitsOrZero env.remoteObjects⟩

def conclude (cfg : Config) (env : Env) (file : Option String) : Outcome :=
  let events := .start env.files.length ::
    if env.observerRc ≠ 0 then [.observerFailed env.observerRc] else []
  if env.rc = 0 then
    let now := toString env.finished
    if env.stateWritten then
      ⟨0, emit env (env.measured now 1 0), true, some (printLines [now]),
        events ++ [.done (digitsOrZero env.bytes)], []⟩
    else ⟨1, emit env (env.measured now 0 1), true, file, events ++ [.stateWriteFailed], []⟩
  else
    ⟨env.rc, emit env (env.measured (remembered file) 0 env.rc), true, file,
      events ++ [.failed env.rc (digitsOrZero env.errors)],
      [⟨"Drive backup FAILED", "high", "rotating_light,cloud",
        "rclone sync exited " ++ toString env.rc ++ " with " ++ digitsOrZero env.errors ++
          " error(s). Off-site copy is now STALE. Detailed log: " ++ cfg.detailLog ++
          "; summary: " ++ cfg.log⟩]⟩

/-- A run. Who does not own the lock publishes nothing. -/
def run (cfg : Config) (env : Env) (file : Option String) : Outcome :=
  let abort (events : List Event) (notices : List Notice) : Outcome :=
    ⟨2, emit env (.initial (remembered file)), false, file, events, notices⟩
  if !env.lockOpened then ⟨1, none, false, file, [], []⟩
  else if env.locked then ⟨0, none, false, file, [.skip], []⟩
  else if !env.agent then abort [.abort "observer_missing"] []
  else if !env.summary then abort [] []
  else if !env.rclone then
    abort [.abort "rclone_missing"] [⟨"Drive backup ABORTED", "high", "rotating_light,cloud",
      "rclone binary missing at " ++ cfg.rclone ++ "."⟩]
  else if env.files = [] then
    abort [.abort "source_empty"] [⟨"Drive backup ABORTED — source empty", "urgent",
      "rotating_light,cloud", cfg.source ++ " contains no files. Refusing to sync, because " ++
        "rclone sync would delete the off-site copy. Check that the weekly backup ran."⟩]
  else conclude cfg env file

/-! ## Runs one after the other -/

/-- What `rclone sync` leaves of the remote tree. It deletes last, and only if there have been no
errors so far, so a sync that fails has deleted nothing, or has all files of the source there. -/
def Mirrors (env : Env) (outcome : Outcome) (before after : List String) : Prop :=
  if outcome.synced then
    if env.syncRc = 0 then after = env.files else before ⊆ after ∨ env.files ⊆ after
  else after = before

structure Record where
  env : Env
  outcome : Outcome
  before : List String
  after : List String

inductive History (cfg : Config) (initial : List String) :
    List Record → Option String → List String → Prop
  | start : History cfg initial [] none initial
  | next {records file remote} (earlier : History cfg initial records file remote) (env : Env)
      (after : List String) (mirrors : Mirrors env (run cfg env file) remote after) :
      History cfg initial (records ++ [⟨env, run cfg env file, remote, after⟩])
        (run cfg env file).lastSuccessFile after

def Env.Syncs (env : Env) : Prop :=
  env.lockOpened = true ∧ env.locked = false ∧ env.agent = true ∧ env.summary = true ∧
    env.rclone = true ∧ env.files ≠ []

/-- The remote tree is up to date, and the run knows it. -/
def Env.Completes (env : Env) : Prop := env.Syncs ∧ env.syncRc = 0 ∧ env.observerRc = 0

def Env.Succeeds (env : Env) : Prop := env.Completes ∧ env.stateWritten = true

instance (env : Env) : Decidable env.Syncs := inferInstanceAs (Decidable (_ ∧ _ ∧ _ ∧ _ ∧ _ ∧ _))

instance (env : Env) : Decidable env.Completes := inferInstanceAs (Decidable (_ ∧ _ ∧ _))

instance (env : Env) : Decidable env.Succeeds := inferInstanceAs (Decidable (_ ∧ _))

/-- When the latest run that succeeded had finished, and zero if none has. -/
def lastSuccess (records : List Record) : Nat :=
  ((records.filter fun record => record.env.Succeeds).getLast?.map
    fun record => record.env.finished).getD 0

structure Honest (before : List Record) (record : Record) : Prop where
  exit : record.outcome.exit = 0 ↔
    record.env.Succeeds ∨ (record.env.lockOpened = true ∧ record.env.locked = true)
  success : ∀ gauges ∈ record.outcome.published,
    (gauges.success = "1" ↔ record.env.Succeeds) ∧ (gauges.success = "1" ∨ gauges.success = "0")
  code : ∀ gauges ∈ record.outcome.published, gauges.exitCode = toString record.outcome.exit
  lastSuccess : ∀ gauges ∈ record.outcome.published, gauges.lastSuccess =
    toString (if record.env.Completes then record.env.finished else lastSuccess before)
  fresh : record.env.Completes → record.after = record.env.files
  kept : record.before ≠ [] → record.after ≠ []

section

variable {cfg : Config} {env : Env} {file : Option String} {records : List Record}
  {initial remote after : List String}

/-! ## One run -/

theorem digitsOrZero_toString (number : Nat) :
    digitsOrZero (toString number) = toString number := by
  have digits : ∀ char ∈ (toString number).toList, char.isDigit = true := by
    rw [Json.toList_toString]
    exact fun char => Json.toDigits_isDigit number
  rw [digitsOrZero, if_pos ⟨toString_ne_empty number, digits⟩]

/-- What a success writes is what the next run starts with. -/
theorem remembered_printed (number : Nat) :
    remembered (some (printLines [toString number])) = toString number := by
  rw [remembered, Option.map_some, Option.getD_some,
    readWord_printLines (spaceless_toString number), digitsOrZero_toString]

theorem run_of_syncs (syncs : env.Syncs) : run cfg env file = conclude cfg env file := by
  rcases syncs with ⟨opened, free, agent, summary, rclone, some_⟩
  simp [run, opened, free, agent, summary, rclone, some_]

structure Stops (env : Env) (file : Option String) (outcome : Outcome) : Prop where
  synced : outcome.synced = false
  kept : outcome.lastSuccessFile = file
  exit : outcome.exit = 0 ↔ env.lockOpened = true ∧ env.locked = true
  published : ∀ gauges ∈ outcome.published, gauges.success = "0" ∧
    gauges.exitCode = toString outcome.exit ∧ gauges.lastSuccess = remembered file

theorem emit_initial {gauges : Gauges}
    (published : gauges ∈ emit env (.initial (remembered file))) :
    gauges.success = "0" ∧ gauges.exitCode = toString 2 ∧ gauges.lastSuccess = remembered file := by
  have zero : toString (0 : Nat) = "0" := by decide
  rw [emit] at published
  split at published
  · cases published
    exact ⟨zero, rfl, rfl⟩
  · cases published

theorem run_stops (cfg : Config) (file : Option String) (stops : ¬env.Syncs) :
    Stops env file (run cfg env file) := by
  rw [run]
  split
  · next closed => exact ⟨rfl, rfl, by simp_all, by simp⟩
  · next opened =>
      split
      · next busy => exact ⟨rfl, rfl, by simp_all, by simp⟩
      · next free =>
          -- The lock is ours, so every way out exits with 2 and publishes.
          have ours : ¬(env.lockOpened = true ∧ env.locked = true) := by simp [free]
          have refuses (events : List Event) (notices : List Notice) : Stops env file
              ⟨2, emit env (.initial (remembered file)), false, file, events, notices⟩ :=
            ⟨rfl, rfl, by simp [ours], fun _ => emit_initial⟩
          split
          · exact refuses _ _
          · next agent =>
              split
              · exact refuses _ _
              · next summary =>
                  split
                  · exact refuses _ _
                  · next rclone =>
                      split
                      · exact refuses _ _
                      · next some_ =>
                          refine absurd ⟨?_, ?_, ?_, ?_, ?_, some_⟩ stops
                          · simpa using opened
                          · simpa using free
                          · simpa using agent
                          · simpa using summary
                          · simpa using rclone

theorem rc_eq_zero : env.rc = 0 ↔ env.syncRc = 0 ∧ env.observerRc = 0 := by
  rw [Env.rc]
  split
  · next failed => simp [failed]
  · next ended =>
      rw [not_not] at ended
      simp [ended]

structure Ends (env : Env) (file : Option String) (outcome : Outcome) : Prop where
  synced : outcome.synced = true
  left : outcome.lastSuccessFile =
    if env.Succeeds then some (printLines [toString env.finished]) else file
  exit : outcome.exit = 0 ↔ env.Succeeds
  published : ∀ gauges ∈ outcome.published,
    gauges.success = (if env.Succeeds then "1" else "0") ∧
      gauges.exitCode = toString outcome.exit ∧
      gauges.lastSuccess = if env.Completes then toString env.finished else remembered file

theorem emit_measured {gauges : Gauges} {lastSuccess : String} {success rc : Nat}
    (published : gauges ∈ emit env (env.measured lastSuccess success rc)) :
    gauges.success = toString success ∧ gauges.exitCode = toString rc ∧
      gauges.lastSuccess = lastSuccess := by
  rw [emit] at published
  split at published
  · cases published
    exact ⟨rfl, rfl, rfl⟩
  · cases published

theorem conclude_ends (cfg : Config) (file : Option String) (syncs : env.Syncs) :
    Ends env file (conclude cfg env file) := by
  rw [conclude]
  by_cases zero : env.rc = 0
  · have completes : env.Completes := ⟨syncs, rc_eq_zero.mp zero⟩
    simp only [if_pos zero]
    cases written : env.stateWritten with
    | true =>
        have succeeds : env.Succeeds := ⟨completes, written⟩
        refine ⟨rfl, (if_pos succeeds).symm, iff_of_true rfl succeeds, fun gauges published => ?_⟩
        rw [if_pos succeeds, if_pos completes]
        exact emit_measured published
    | false =>
        have fails : ¬env.Succeeds := fun succeeds => by simp [succeeds.2] at written
        refine ⟨rfl, (if_neg fails).symm, iff_of_false (by simp) fails, fun gauges published => ?_⟩
        rw [if_neg fails, if_pos completes]
        exact emit_measured published
  · have incomplete : ¬env.Completes := fun completes => zero (rc_eq_zero.mpr completes.2)
    have fails : ¬env.Succeeds := fun succeeds => incomplete succeeds.1
    simp only [if_neg zero]
    refine ⟨rfl, (if_neg fails).symm, iff_of_false zero fails, fun gauges published => ?_⟩
    rw [if_neg fails, if_neg incomplete]
    exact emit_measured published

/-! ## Histories -/

theorem lastSuccess_append_singleton {record : Record} :
    lastSuccess (records ++ [record]) =
      if record.env.Succeeds then record.env.finished else lastSuccess records := by
  by_cases succeeds : record.env.Succeeds <;>
    simp [lastSuccess, List.filter_append, succeeds]

/-- The file is about the latest success. -/
theorem history_remembered (history : History cfg initial records file remote) :
    remembered file = toString (lastSuccess records) := by
  induction history with
  | start => rfl
  | @next records file remote earlier env after mirrors induction =>
      rw [lastSuccess_append_singleton]
      by_cases syncs : env.Syncs
      · have ends := conclude_ends cfg file syncs
        rw [run_of_syncs syncs, ends.left]
        split
        · exact remembered_printed env.finished
        · exact induction
      · have stops := run_stops cfg file syncs
        rw [stops.kept, if_neg fun succeeds => syncs succeeds.1.1]
        exact induction

theorem run_honest {before : List Record} (known : remembered file = toString (lastSuccess before))
    (mirrors : Mirrors env (run cfg env file) remote after) :
    Honest before ⟨env, run cfg env file, remote, after⟩ := by
  by_cases syncs : env.Syncs
  · have ends := conclude_ends cfg file syncs
    rw [run_of_syncs syncs] at mirrors ⊢
    rw [Mirrors, if_pos ends.synced] at mirrors
    refine ⟨?_, fun gauges published => ?_, fun gauges published => ?_, fun gauges published => ?_,
      fun completes => ?_, fun some_ => ?_⟩
    · simp [ends.exit, syncs.2.1]
    · have said := (ends.published gauges published).1
      rw [said]
      split <;> simp_all
    · exact (ends.published gauges published).2.1
    · rw [(ends.published gauges published).2.2, known]
      split <;> rfl
    · rw [if_pos completes.2.1] at mirrors
      exact mirrors
    · by_cases ended : env.syncRc = 0
      · rw [if_pos ended] at mirrors
        exact mirrors ▸ syncs.2.2.2.2.2
      · rw [if_neg ended] at mirrors
        rcases mirrors with undeleted | transferred
        · exact fun empty => some_ (List.subset_nil.mp (empty ▸ undeleted))
        · exact fun empty => syncs.2.2.2.2.2 (List.subset_nil.mp (empty ▸ transferred))
  · have stops := run_stops cfg file syncs
    have incomplete : ¬env.Completes := fun completes => syncs completes.1
    have fails : ¬env.Succeeds := fun succeeds => incomplete succeeds.1
    rw [Mirrors, if_neg (by simp [stops.synced])] at mirrors
    refine ⟨?_, fun gauges published => ?_, fun gauges published => ?_, fun gauges published => ?_,
      fun completes => absurd completes incomplete, fun some_ => mirrors ▸ some_⟩
    · simp [stops.exit, fails]
    · simp [(stops.published gauges published).1, fails]
    · exact (stops.published gauges published).2.1
    · rw [(stops.published gauges published).2.2, known, if_neg incomplete]

end

/-- What is published of the off-site copy is true, whatever fails, and it is never emptied. -/
theorem offsite_honest {cfg : Config} {initial : List String} {records : List Record}
    {file : Option String} {remote : List String}
    (history : History cfg initial records file remote) :
    (∀ before record after, records = before ++ record :: after → Honest before record) ∧
      (initial ≠ [] → remote ≠ []) := by
  induction history with
  | start => exact ⟨by simp, id⟩
  | @next records file remote earlier env after mirrors induction =>
      have honest := run_honest (history_remembered earlier) mirrors
      refine ⟨fun before record later split => ?_, fun some_ => honest.kept (induction.2 some_)⟩
      rcases List.eq_nil_or_concat later with rfl | ⟨inner, last, rfl⟩
      · have parts := List.append_inj' split rfl
        rw [← parts.1, ← (List.cons.inj parts.2).1]
        exact honest
      · rw [List.concat_eq_append, ← List.cons_append, ← List.append_assoc] at split
        exact induction.1 before record inner (List.append_inj' split rfl).1

/-! ## An unmounted source -/

def pilotConfig : Config :=
  ⟨"/srv/backups", "/usr/local/bin/rclone", "/var/log/homelab-gdrive.log",
    "/var/log/homelab-gdrive-rclone.log"⟩

def pilotEnv (started : Nat) (files : List String) : Env where
  started := started
  lockOpened := true
  locked := false
  agent := true
  summary := true
  rclone := true
  files := files
  syncRc := 0
  observerRc := 0
  bytes := "1024"
  errors := "0"
  quotaTotal := ""
  quotaUsed := ""
  quotaFree := ""
  remoteBytes := ""
  remoteObjects := ""
  finished := started + 60
  stateWritten := true
  textfileDir := true
  textfileWritten := true
  emitted := started + 61
  measuredAt := started + 61

/-- The second run finds no files, and the copy of the first one stays. -/
theorem offsite_honest_unmounted : ∃ records file, History pilotConfig [] records file ["app.sql"] ∧
    records.map (fun record => (record.outcome.exit, record.outcome.synced)) =
      [(0, true), (2, false)] ∧
    ∀ before record after, records = before ++ record :: after → Honest before record := by
  have first : History pilotConfig [] _ _ ["app.sql"] :=
    History.start.next (pilotEnv 0 ["app.sql"]) ["app.sql"] rfl
  have second : History pilotConfig [] _ _ ["app.sql"] :=
    first.next (pilotEnv 604800 []) ["app.sql"] rfl
  exact ⟨_, _, second, by decide +kernel, (offsite_honest second).1⟩

end Homelab.GdriveBackup
