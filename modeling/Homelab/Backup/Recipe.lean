import Homelab.Effects.Trap
import Homelab.Foundation.Lines

/-! # The backup recipes

Every recipe builds an archive beside its final name, checks it, renames it and prints one
status line. INT and TERM are trapped by a handler that cleans up and returns. Text is bytes,
one to a character.
-/

namespace Homelab.Backup

open Effects Effects.Trap Text

/-! ## Status lines -/

inductive Method
  | sqlite
  | stopTar
  | tar
  | pgDump
  | pgGlobals

def Method.name : Method → String
  | sqlite => "sqlite"
  | stopTar => "stop_tar"
  | tar => "tar"
  | pgDump => "pg_dump"
  | pgGlobals => "pg_globals"

inductive Ending
  | ok (bytes durationMs : Int) (entries : Option Int)
  | fail (durationMs : Int) (error : Line)

structure Report where
  service : Line
  method : Method
  ending : Ending

/-- `%d`. -/
def decimal (value : Int) : Line := (toString value).toList

def Ending.fields : Ending → Line
  | .ok bytes durationMs entries =>
      "\"status\":\"ok\",\"bytes\":".toList ++ decimal bytes ++
        ",\"duration_ms\":".toList ++ decimal durationMs ++
        match entries with
        | some entries => ",\"entries\":".toList ++ decimal entries
        | none => []
  | .fail durationMs error =>
      "\"status\":\"fail\",\"bytes\":0,\"duration_ms\":".toList ++ decimal durationMs ++
        ",\"error\":\"".toList ++ error ++ ['"']

def Report.line (report : Report) : Line :=
  "\x7b\"service\":\"".toList ++ report.service ++ "\",\"method\":\"".toList ++
    report.method.name.toList ++ "\",".toList ++ report.ending.fields ++ "\x7d\n".toList

/-- `$(head -c 200 FILE | tr '\n' ' ')`, of what the file holds. -/
def clip (errors : Line) : Line :=
  ((errors.take 200).map fun char => if char = '\n' then ' ' else char).filter (· ≠ .ofNat 0)

/-! ## Commands -/

/-- The files of a day directory that a recipe names: the database copy before it is
compressed, the archive that is being built, and the one under the final name. -/
inductive Slot
  | copy
  | building
  | archive
deriving DecidableEq

inductive Command
  /-- `mkdir -p`, whose status nobody reads. -/
  | makeDirectory
  /-- `date +%s%3N`. -/
  | milliseconds
  /-- `docker inspect` says that the container runs. -/
  | inspect
  /-- `docker stop` succeeds. -/
  | stop
  /-- `pg_isready` succeeds. -/
  | ready
  /-- `[ -f "$DB_PATH" ]`. -/
  | found
  /-- `tar -czf`, `.backup` or `pg_dump | gzip`: the exit status. -/
  | build (slot : Slot)
  /-- `.schema` succeeds. -/
  | schema
  /-- `gzip -f`: the exit status. -/
  | compress
  /-- `[ -s FILE ]`, and `gzip -t` succeeds. -/
  | test
  /-- `tar -tzf | wc -l`; the recipe refuses fewer than `least`. -/
  | entries (least : Int)
  /-- `mv -f` renames the built archive. -/
  | rename
  /-- `stat -c %s`, zero where it prints nothing. -/
  | size
  /-- What is in the file of errors. -/
  | errors
  /-- `rm -f` of the file of errors and of these. -/
  | remove (slots : List Slot)
  | print (report : Report)

def Command.Value : Command → Type
  | .milliseconds | .entries _ | .size => Int
  | .inspect | .stop | .ready | .found | .schema | .test | .rename => Bool
  | .build _ | .compress => Nat
  | .errors => Line
  | .makeDirectory | .remove _ | .print _ => Unit

/-- What a handler does: `rm -f`, and `docker start`. -/
inductive Cleanup
  | tidy (slots : List Slot)
  | start

def shell : Shell where
  Command := Command
  Value := Command.Value
  Action := Cleanup

/-! ## Recipes -/

/-- Print a failure and exit, which runs the handler once more. -/
def giveUp (handler : Script shell) (report : Report) : Script shell :=
  trapped handler (.print report) fun _ => handler

/-- `backup-tar.sh`. -/
def tarRecipe (service : Line) : Script shell :=
  let cleanupPartial : Script shell := act (Cleanup.tidy [.building])
  untrapped .makeDirectory fun _ =>
  trapped cleanupPartial .milliseconds fun (startMs : Int) =>
  trapped cleanupPartial (.build .building) fun (rc : Nat) =>
  trapped cleanupPartial .milliseconds fun (now : Int) =>
  if rc ≠ 0 then
    trapped cleanupPartial .errors fun (errors : Line) =>
    trapped cleanupPartial (.remove []) fun _ =>
    giveUp cleanupPartial ⟨service, .tar, .fail (now - startMs) (clip errors)⟩
  else
    trapped cleanupPartial (.entries 1) fun (entries : Int) =>
    if entries < 1 then
      giveUp cleanupPartial ⟨service, .tar, .fail (now - startMs) "empty archive".toList⟩
    else
      trapped cleanupPartial .rename fun _ =>
      untrapped .size fun (bytes : Int) =>
      untrapped (.remove []) fun _ =>
      untrapped (.print ⟨service, .tar, .ok bytes (now - startMs) (some entries)⟩) fun _ =>
      .done ()

/-- `restart_container` of `backup-stop_tar.sh`. -/
def restartContainer (containerWasRunning : Bool) : Script shell :=
  (if containerWasRunning then act Cleanup.start else .done ()) >>= fun _ =>
  act (Cleanup.tidy [.building])

/-- `backup-stop_tar.sh` from its `tar` on. -/
def stoppedTar (service : Line) (containerWasRunning : Bool) (startMs : Int) : Script shell :=
  let restart := restartContainer containerWasRunning
  trapped restart (.build .building) fun (rc : Nat) =>
  trapped restart .milliseconds fun (now : Int) =>
  if rc ≠ 0 then
    trapped restart .errors fun (errors : Line) =>
    trapped restart (.remove []) fun _ =>
    giveUp restart ⟨service, .stopTar, .fail (now - startMs) (clip errors)⟩
  else
    trapped restart (.entries 0) fun (entries : Int) =>
    trapped restart .rename fun _ =>
    trapped restart .size fun (bytes : Int) =>
    trapped restart (.remove []) fun _ =>
    trapped restart (.print ⟨service, .stopTar, .ok bytes (now - startMs) (some entries)⟩)
      fun _ => restart

/-- `backup-stop_tar.sh`. -/
def stopTarRecipe (service : Line) : Script shell :=
  untrapped .makeDirectory fun _ =>
  untrapped .inspect fun (containerWasRunning : Bool) =>
  let restart := restartContainer containerWasRunning
  trapped restart .milliseconds fun (startMs : Int) =>
  if containerWasRunning then
    trapped restart .stop fun (stopped : Bool) =>
    if stopped then stoppedTar service containerWasRunning startMs
    else giveUp restart ⟨service, .stopTar, .fail 0 "docker stop failed".toList⟩
  else stoppedTar service containerWasRunning startMs

/-- `backup-sqlite.sh`. -/
def sqliteRecipe (service dbPath : Line) : Script shell :=
  let cleanupPartial : Script shell := act (Cleanup.tidy [.copy, .building])
  let fail (durationMs : Int) (error : Line) : Script shell :=
    giveUp cleanupPartial ⟨service, .sqlite, .fail durationMs error⟩
  untrapped .makeDirectory fun _ =>
  trapped cleanupPartial .found fun (found : Bool) =>
  if found = false then fail 0 ("db not found at ".toList ++ dbPath)
  else
    trapped cleanupPartial .milliseconds fun (startMs : Int) =>
    trapped cleanupPartial (.build .copy) fun (rc : Nat) =>
    if rc ≠ 0 then
      trapped cleanupPartial .errors fun (errors : Line) =>
      trapped cleanupPartial (.remove [.copy]) fun _ =>
      trapped cleanupPartial .milliseconds fun (now : Int) =>
      fail (now - startMs) (clip errors)
    else
      trapped cleanupPartial .schema fun (readable : Bool) =>
      if readable = false then
        trapped cleanupPartial (.remove [.copy]) fun _ =>
        trapped cleanupPartial .milliseconds fun (now : Int) =>
        fail (now - startMs) "integrity check failed (.schema unreadable)".toList
      else
        trapped cleanupPartial .compress fun (rc : Nat) =>
        if rc ≠ 0 then
          trapped cleanupPartial .errors fun (errors : Line) =>
          trapped cleanupPartial (.remove [.copy, .building]) fun _ =>
          trapped cleanupPartial .milliseconds fun (now : Int) =>
          fail (now - startMs) ("gzip failed: ".toList ++ clip errors)
        else
          trapped cleanupPartial .rename fun _ =>
          untrapped .milliseconds fun (now : Int) =>
          untrapped .size fun (bytes : Int) =>
          untrapped (.remove []) fun _ =>
          untrapped (.print ⟨service, .sqlite, .ok bytes (now - startMs) none⟩) fun _ =>
          .done ()

/-- `backup-pg_dump.sh`. -/
def pgDumpRecipe (service container dbName : Line) : Script shell :=
  let cleanupPartial : Script shell := act (Cleanup.tidy [.building])
  let fail (durationMs : Int) (error : Line) : Script shell :=
    giveUp cleanupPartial ⟨service, .pgDump, .fail durationMs error⟩
  untrapped .makeDirectory fun _ =>
  trapped cleanupPartial .ready fun (ready : Bool) =>
  if ready = false then
    fail 0 ("pg_isready failed for ".toList ++ container ++ ['/'] ++ dbName)
  else
    trapped cleanupPartial .milliseconds fun (startMs : Int) =>
    trapped cleanupPartial (.build .building) fun (rc : Nat) =>
    if rc ≠ 0 then
      trapped cleanupPartial .errors fun (errors : Line) =>
      trapped cleanupPartial (.remove [.building]) fun _ =>
      trapped cleanupPartial .milliseconds fun (now : Int) =>
      fail (now - startMs) (clip errors)
    else
      trapped cleanupPartial .test fun (sound : Bool) =>
      if sound = false then
        trapped cleanupPartial (.remove [.building]) fun _ =>
        trapped cleanupPartial .milliseconds fun (now : Int) =>
        fail (now - startMs) "dump empty or corrupt".toList
      else
        trapped cleanupPartial .rename fun _ =>
        untrapped .milliseconds fun (now : Int) =>
        untrapped .size fun (bytes : Int) =>
        untrapped (.remove []) fun _ =>
        untrapped (.print ⟨service, .pgDump, .ok bytes (now - startMs) none⟩) fun _ =>
        .done ()

inductive Recipe
  | stopTar (service : Line)
  | sqlite (service dbPath : Line)
  | tar (service : Line)
  | pgDump (service container dbName : Line)

def Recipe.script : Recipe → Script shell
  | .stopTar service => stopTarRecipe service
  | .sqlite service dbPath => sqliteRecipe service dbPath
  | .tar service => tarRecipe service
  | .pgDump service container dbName => pgDumpRecipe service container dbName

end Homelab.Backup
