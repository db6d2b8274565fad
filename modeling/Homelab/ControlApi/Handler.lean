import Homelab.Effects.Attempt
import Homelab.Foundation.Python
import Homelab.Foundation.Url

/-! # The requests of the control API

The handlers of `control-api.py`. Everything they read of the host, start on it or change
is an operation, and so is what they send back.
-/

namespace Homelab.ControlApi

open Effects Text Python

/-! ## Requests and responses -/

inductive Method
  | get
  | post
deriving DecidableEq

structure Request where
  method : Method
  path : Line
  headers : List (String × String)

/-- `headers.get(name, "")`: the case of a name does not matter, and the first one counts. -/
def Request.header (request : Request) (name : String) : String :=
  match request.headers.find? fun header => lower header.1 = lower name with
  | some header => header.2
  | none => ""

inductive Body
  | json (value : Value)
  | html (text : String)

/-- A response, without the headers that every response has. -/
structure Response where
  code : Nat
  body : Body

def Response.contentType (response : Response) : String :=
  match response.body with
  | .json _ => "application/json"
  | .html _ => "text/html; charset=utf-8"

/-! ## The host -/

/-- A junk file or directory, as `scan_junk` finds it. -/
structure Found where
  path : String
  name : String
  size : Nat
  isDir : Bool
deriving DecidableEq

structure Notice where
  title : String
  message : String
  priority : String
  tags : String

inductive Thread
  | runUpdate
  | runBackup

/-- A call of `subprocess.run`. -/
structure Output where
  returncode : Int
  stdout : String
  stderr : String

inductive Exception
  | valueError
  | osError (text : String)
  | timeoutExpired
  | other (text : String)

structure Audit where
  deleted : Nat
  freed : Nat
  errors : Nat
  files : List String
deriving DecidableEq

inductive Operation
  | getStorageStats
  | scanJunk
  | parseWatchtowerUpdates
  | getOffloadStatus
  | getOffloadHistory
  | getBackupStatus
  | subprocessRun (cmd : List String) (timeout : Nat)
  | popen (cmd : List String)
  | startThread (thread : Thread)
  | realpath (path : String)
  | remove (path : String)
  | rmtree (path : String)
  | isFile (path : String)
  | isExecutable (path : String)
  | utcNow
  | audit (line : Audit)
  | ntfy (notice : Notice)
  | send (response : Response)

abbrev Reply : Operation → Type
  | .getStorageStats => Except Exception (List (String × Value))
  | .scanJunk => List Found
  | .parseWatchtowerUpdates => List Value
  | .getOffloadStatus => Value
  | .getOffloadHistory => List Value
  | .getBackupStatus => Value
  | .subprocessRun _ _ => Except Exception Output
  | .popen _ => Except Exception Unit
  | .startThread _ => Except Exception Unit
  | .realpath _ => List String
  | .remove _ => Except String Unit
  | .rmtree _ => Except String Unit
  | .isFile _ => Bool
  | .isExecutable _ => Bool
  | .utcNow => String
  | .audit _ => Unit
  | .ntfy _ => Unit
  | .send _ => Unit

abbrev interface : Interface := ⟨Operation, Reply⟩

abbrev Api := Attempt interface Exception

def ask (operation : Operation) : Api (Reply operation) :=
  ExceptT.lift (.call operation .done)

def raising {α : Type} (answer : Api (Except Exception α)) : Api α := do
  match ← answer with
  | .ok result => pure result
  | .error exception => throw exception

structure Config where
  token : String
  controlDir : String
  backupScript : String
  panelHtml : String
  /-- The network locations that `urlparse` takes. -/
  netlocAllowed : Line → Bool

def maxLogLines : Int := 500

def maxLogOutputChars : Nat := 10000

def dockerContainerWhitelist : List String :=
  ["jellyfin", "sonarr", "radarr", "prowlarr", "qbittorrent", "jellyseerr", "adguard", "traefik",
    "portainer", "filebrowser", "homepage", "beszel", "beszel-agent", "watchtower", "ntfy"]

/-! ## Sending -/

def sendJson (code : Nat) (data : Value) : Api Unit := ask (.send ⟨code, .json data⟩)

def sendHtml (code : Nat) (html : String) : Api Unit := ask (.send ⟨code, .html html⟩)

def error (text : String) : Value := .dict [("error", .str text)]

def status (text : String) : Value := .dict [("status", .str text)]

def ntfy (title message priority tags : String) : Api Unit :=
  ask (.ntfy ⟨title, message, priority, tags⟩)

/-! ## Junk -/

/-- `realpath` is strictly inside of the directory, by whole names. -/
def isInside (base real : List String) : Bool := base.isPrefixOf real && decide (real ≠ base)

structure Cleaned where
  deleted : Nat
  freed : Nat
  errors : List (String × String)
deriving DecidableEq

def cleanFile (srvReal : List String) (cleaned : Cleaned) (file : Found) : Api Cleaned := do
  let real ← ask (.realpath file.path)
  if isInside srvReal real then
    let removed ← if file.isDir then ask (.rmtree file.path) else ask (.remove file.path)
    match removed with
    | .ok _ => pure ⟨cleaned.deleted + 1, cleaned.freed + file.size, cleaned.errors⟩
    | .error text => pure { cleaned with errors := cleaned.errors ++ [(file.path, text)] }
  else
    pure { cleaned with errors := cleaned.errors ++ [(file.path, "Path escapes /srv, skipped")] }

def cleanFiles (srvReal : List String) (cleaned : Cleaned) : List Found → Api Cleaned
  | [] => pure cleaned
  | file :: rest => do cleanFiles srvReal (← cleanFile srvReal cleaned file) rest

def megabytes (bytes : Nat) : String :=
  let tenths : ℚ := bytes * 10 / (1024 * 1024)
  let below := ⌊tenths⌋
  let excess := tenths - below
  let rounded := if excess < 1 / 2 ∨ excess = 1 / 2 ∧ below % 2 = 0 then below else below + 1
  toString (rounded / 10) ++ "." ++ toString (rounded % 10)

def junkClean : Api Unit := do
  let files ← ask .scanJunk
  let srvReal ← ask (.realpath "/srv")
  let cleaned ← cleanFiles srvReal ⟨0, 0, []⟩ files
  ask (.audit ⟨cleaned.deleted, cleaned.freed, cleaned.errors.length,
    (files.take cleaned.deleted).map Found.path⟩)
  let message := "Deleted " ++ toString cleaned.deleted ++ " junk files, freed " ++
    megabytes cleaned.freed ++ " MB"
  let message := if cleaned.errors = [] then message
    else message ++ "\n⚠️ " ++ toString cleaned.errors.length ++ " errors (symlink/permission)"
  ntfy "Junk Cleaned" message "default" "wastebasket"
  sendJson 200 (.dict [("status", .str "cleaned"), ("deleted", .int cleaned.deleted),
    ("freed_bytes", .int cleaned.freed), ("errors", .list (cleaned.errors.map fun failed =>
      .dict [("path", .str failed.1), ("error", .str failed.2)]))])

/-! ## Actions -/

def shutdown (cfg : Config) : Api Unit := do
  sendJson 200 (status "shutting down")
  ntfy "Homelab Shutting Down" "System is powering off. All containers will stop." "high"
    "red_circle"
  raising (ask (.popen ["sudo", cfg.controlDir ++ "/shutdown.sh"]))

def restart (cfg : Config) : Api Unit := do
  sendJson 200 (status "restarting")
  ntfy "Homelab Restarting" "System is rebooting. Services will be back in ~2 minutes." "high"
    "arrows_counterclockwise"
  raising (ask (.popen ["sudo", cfg.controlDir ++ "/restart.sh"]))

def update : Api Unit := do
  sendJson 202 (status "update scheduled")
  ntfy "Container Update Started" "Pulling & restarting compose services in the background."
    "default" "hourglass_flowing_sand"
  raising (ask (.startThread .runUpdate))

/-- `run(cmd)`: a timeout is a status, everything else is raised. -/
def run (cmd : List String) : Api Output := do
  match ← ask (.subprocessRun cmd 120) with
  | .ok output => pure output
  | .error .timeoutExpired => pure ⟨1, "", "Command timed out"⟩
  | .error exception => throw exception

def clean : Api Unit := do
  let output ← run ["docker", "system", "prune", "-af", "--volumes=false"]
  let out := strip output.stdout
  let found := (splitlines out).find? fun line => contains "reclaimed" (line.map Char.toLower)
  let reclaimed := (found.map String.ofList).getD "done"
  ntfy "Docker Cleaned" ("Pruned unused images & networks.\n" ++ reclaimed) "default" "broom"
  sendJson 200 (.dict [("status", .str "cleaned"), ("output", .str out)])

def backup (cfg : Config) : Api Unit := do
  let usable ← if ← ask (.isFile cfg.backupScript) then ask (.isExecutable cfg.backupScript)
    else pure false
  if usable then
    let started ← ask .utcNow
    sendJson 202 (.dict [("status", .str "started"), ("started_ts", .str started)])
    raising (ask (.startThread .runBackup))
  else
    sendJson 503 (error ("backup script not found or not executable: " ++ cfg.backupScript))

/-! ## Reports -/

def counted (name : String) (items : List Value) : Value :=
  .dict [(name, .list items), ("total", .int items.length)]

def Found.value (found : Found) : Value :=
  let fields : List (String × Value) :=
    [("path", .str found.path), ("name", .str found.name), ("size", .int found.size)]
  .dict (if found.isDir then fields ++ [("is_dir", .bool true)] else fields)

def junk : Api Unit := do
  let files ← ask .scanJunk
  sendJson 200 (.dict [("files", .list (files.map Found.value)),
    ("total_count", .int files.length), ("total_size", .int (files.map Found.size).sum)])

/-- The command whose output is the log, unless the source is none of the known ones. -/
def logsCommand (source : String) (lines : Int) : Option (List String) :=
  if source = "system" then
    some ["journalctl", "-n", toString lines, "--no-pager", "-o", "short-iso"]
  else if source ∈ dockerContainerWhitelist then
    some ["docker", "logs", "--tail", toString lines, source]
  else none

def logs (query : Line) : Api Unit := do
  let source := String.ofList (Url.param "source" "system" query)
  let lines := match intOf (.ofList (Url.param "lines" "100" query)) with
    | some lines => min lines maxLogLines
    | none => 100
  match logsCommand source lines with
  | none => sendJson 400 (error "invalid source")
  | some cmd =>
      match ← ask (.subprocessRun cmd 10) with
      | .ok output =>
          let raw := (if output.stdout = "" then output.stderr else output.stdout).toList
          let kept := raw.drop (raw.length - maxLogOutputChars)
          sendJson 200 (.dict [("source", .str source),
            ("lines", .list ((Text.lines kept).map fun line => .str (.ofList line))),
            ("truncated", .bool (decide (maxLogOutputChars < raw.length)))])
      | .error .timeoutExpired => sendJson 504 (error "timeout")
      | .error exception => throw exception

/-! ## Dispatch -/

/-- `_check_auth`: it sends the refusal itself. -/
def checkAuth (cfg : Config) (request : Request) : Api Bool :=
  if request.header "Authorization" ≠ "Bearer " ++ cfg.token then do
    sendJson 401 (error "unauthorized")
    pure false
  else pure true

def guarded (cfg : Config) (request : Request) (handler : Api Unit) : Api Unit := do
  if ← checkAuth cfg request then handler else pure ()

def checkTokenParam (cfg : Config) (query : Line) : Bool :=
  Url.param "token" "" query = cfg.token.toList

/-- The routes whose handlers check the bearer token first. -/
def route (path : String) (query : Line) : Option (Api Unit) :=
  match path with
  | "/storage" => some do
      sendJson 200 (.dict (← raising (ask .getStorageStats)))
  | "/junk" => some junk
  | "/updates" => some do
      sendJson 200 (counted "sessions" (← ask .parseWatchtowerUpdates))
  | "/logs" => some (logs query)
  | "/offload/status" => some do
      sendJson 200 (← ask .getOffloadStatus)
  | "/offload/history" => some do
      sendJson 200 (counted "runs" (← ask .getOffloadHistory))
  | "/backup/last" => some do
      sendJson 200 (← ask .getBackupStatus)
  | _ => none

def doGet (cfg : Config) (request : Request) : Api Unit := do
  match Url.urlparse cfg.netlocAllowed request.path with
  | none => throw .valueError
  | some parsed =>
      let path := String.ofList parsed.path
      if path = "/" then
        if checkTokenParam cfg parsed.query then sendHtml 200 cfg.panelHtml
        else sendJson 401 (error "unauthorized")
      else if path = "/health" then sendJson 200 (status "ok")
      else
        match route path parsed.query with
        | some handler => guarded cfg request handler
        | none => sendJson 404 (error "not found")

/-- The actions are looked up by the whole path, query included. -/
def action (cfg : Config) (path : Line) : Option (Api Unit) :=
  match String.ofList path with
  | "/shutdown" => some (shutdown cfg)
  | "/restart" => some (restart cfg)
  | "/update" => some update
  | "/clean" => some clean
  | "/junk" => some junkClean
  | "/backup" => some (backup cfg)
  | _ => none

def doPost (cfg : Config) (request : Request) : Api Unit :=
  guarded cfg request <|
    match action cfg request.path with
    | some handler => handler
    | none => sendJson 404 (error "not found")

def handle (cfg : Config) (request : Request) : Api Unit :=
  match request.method with
  | .get => doGet cfg request
  | .post => doPost cfg request

end Homelab.ControlApi
