import Homelab.RunnerMetrics.Samples

/-! # The collector that is preserved

`gh_runner_metrics.py`, the Python collector whose metrics the Go collector renders.
-/

namespace Homelab.RunnerMetrics.Reference

open Text Python

/-- How deep the interpreter nests JSON, which is no deeper than Go does, and `str(value)` of
what is no text. -/
structure Interpreter where
  depth : Nat
  str : Value → Line
  nests : depth ≤ GoJson.maxNestingDepth

/-! ## Reading -/

def num (value : Value) : Except Raised Int :=
  match value.toInt with
  | .error .typeError => .ok 0
  | .error .valueError => .ok 0
  | outcome => outcome

/-- `_read_heartbeat`, of a file that may not be there. -/
def readHeartbeat (file : Option Line) : Except Raised Int :=
  match file with
  | none => .ok 0
  | some data =>
      match Utf8.opened data with
      | none => .error .valueError
      | some text => num (.str (strip (.ofList text)))

def readStatus (python : Interpreter) (file : Option Line) :
    Except Raised (List (String × Value)) :=
  match file with
  | none => .ok []
  | some data =>
      match Utf8.opened data with
      | none => .error .valueError
      | some text =>
          match Json.loads python.depth (.ofList text) with
          | .ok (.dict fields) => .ok fields
          | .ok _ => .ok []
          | .error .valueError => .ok []
          | .error raised => .error raised

def get (fields : List (String × Value)) (name : String) : Value :=
  (fields.lookup name).getD .none

/-- `hb or _num(status.get("supervisor_heartbeat_ts"))`. -/
def supervisorHeartbeat (hb : Int) (status : List (String × Value)) : Except Raised Int :=
  if hb ≠ 0 then .ok hb else num (get status "supervisor_heartbeat_ts")

/-- The items of `value or {}`, if it is a dictionary. -/
def items : Value → List (String × Value)
  | .dict fields => fields
  | _ => []

/-! ## Printing -/

def block (kind : Exposition.Kind) (name help : String) (value : Int) (labels : Line) :
    List Line :=
  ["# HELP ".toList ++ name.toList ++ ' ' :: help.toList,
    "# TYPE ".toList ++ name.toList ++ ' ' :: kind.text,
    name.toList ++ labels ++ ' ' :: (toString value).toList]

def g := block .gauge

def c := block .counter

def unquoted (text : Line) : Line := text.filter (· ≠ '"')

def Interpreter.text (python : Interpreter) : Value → Line
  | .str text => text.toList
  | value => python.str value

def labelled (name label : String) (value : Line) (number : Int) : Line :=
  name.toList ++ '\x7b' :: (label.toList ++ '=' :: '"' :: (value ++ ['"', '\x7d'])) ++
    ' ' :: (toString number).toList

def samples (name label : String) (fields : List (String × Value))
    (value : Value → Except Raised Int) : Except Raised (List Line) :=
  if fields = [] then .ok [labelled name label "none".toList 0]
  else fields.mapM fun field =>
    (value field.2).map fun number => labelled name label (unquoted field.1.toList) number

/-- How the lines of a metric are printed, its name and text, and the key of its number. -/
structure Row where
  lines : String → String → Int → Line → List Line
  name : String
  help : String
  key : String

def statusRows : List Row :=
  [⟨g, "gh_runner_idle_count",
      "Idle ephemeral runner containers the supervisor believes are up.", "idle_count"⟩,
    ⟨g, "gh_runner_orphan_containers", "Exited job containers awaiting cleanup.",
      "orphan_containers"⟩,
    ⟨g, "gh_runner_last_job_exit_code", "Exit code of the most recent job container.",
      "last_job_exit_code"⟩,
    ⟨c, "gh_runner_jobs_total", "Jobs completed since supervisor start.", "jobs_total"⟩,
    ⟨c, "gh_runner_jobs_failed_total", "Jobs that exited non-zero since supervisor start.",
      "jobs_failed_total"⟩,
    ⟨c, "gh_runner_github_api_auth_failures_total", "GitHub API 401/403 responses (PAT problem).",
      "github_api_auth_failures_total"⟩,
    ⟨g, "gh_runner_jit_last_success_timestamp_seconds", "Unix ts of the last successful JIT mint.",
      "jit_last_success_ts"⟩,
    ⟨g, "gh_runner_github_api_rate_remaining", "GitHub REST rate-limit headroom.",
      "github_api_rate_remaining"⟩,
    ⟨g, "gh_runner_image_build_timestamp_seconds",
      "When the runner image was built (age -> staleness).", "image_build_timestamp"⟩]

def rebuildRows : List Row :=
  [⟨g, "gh_runner_rebuild_last_attempt_timestamp_seconds",
      "Unix ts of the last runner-image rebuild attempt (0 if never).", "last_attempt_ts"⟩,
    ⟨g, "gh_runner_rebuild_last_success_timestamp_seconds",
      "Unix ts of the last SUCCESSFUL runner-image rebuild (0 if never).", "last_success_ts"⟩,
    ⟨g, "gh_runner_rebuild_last_exit_code",
      "Exit code of the last rebuild attempt (non-zero => failed push/build).",
      "last_exit_code"⟩]

/-- `repo_metrics`. -/
def repoRows : List (String × String × String) :=
  [("gh_runner_registered_count", "Runners GitHub lists for the repo.", "registered"),
    ("gh_runner_online_count", "Online runners for the repo.", "online"),
    ("gh_runner_busy_count", "Busy runners (running a job) for the repo.", "busy"),
    ("gh_runner_offline_count", "Offline runners (orphans pending reap) for the repo.", "offline"),
    ("gh_runner_queued_jobs", "Queued homelab-build jobs awaiting a runner.", "queued_jobs")]

def blocks (fields : List (String × Value)) (rows : List Row) : Except Raised (List Line) :=
  (rows.mapM fun row =>
    (num (get fields row.key)).map fun number => row.lines row.name row.help number []).map
      List.flatten

def headers (kind : Exposition.Kind) (name help : String) : List Line :=
  ["# HELP ".toList ++ name.toList ++ ' ' :: help.toList,
    "# TYPE ".toList ++ name.toList ++ ' ' :: kind.text]

/-- `render`, of the contents of the files. -/
def render (python : Interpreter) (statusFile heartbeatFile : Option Line)
    (staleSeconds now : Int) (rebuildFile : Option Line) : Except Raised Line := do
  let hb ← readHeartbeat heartbeatFile
  let status ← readStatus python statusFile
  let supervisorHb ← supervisorHeartbeat hb status
  let stale := if supervisorHb = 0 ∨ staleSeconds < now - supervisorHb then 1 else 0
  let statusLines ← blocks status statusRows
  let version :=
    unquoted (python.text ((status.lookup "runner_version").getD (.str "unknown")))
  let rebuild ← readStatus python rebuildFile
  let rebuildLines ← blocks rebuild rebuildRows
  let failureLines ← samples "gh_runner_jit_config_failures_total" "status"
    (items (get status "jit_config_failures")) num
  let repos := items (get status "repos")
  let repoLines ← repoRows.mapM fun (name, help, key) =>
    (samples name "repo" repos fun info => num (get (items info) key)).map fun lines =>
      headers .gauge name help ++ lines
  let lines :=
    g "gh_runner_metrics_last_run_unix_seconds" "Unix time of the last Pi emitter run." now [] ++
      g "gh_runner_supervisor_heartbeat_timestamp_seconds"
        "Unix ts of the last Mac supervisor heartbeat (0 if missing)." supervisorHb [] ++
      g "gh_runner_heartbeat_stale"
        "1 when the supervisor heartbeat is missing or older than the threshold." stale [] ++
      statusLines ++
      g "gh_runner_version_info" "Constant 1; labels the pinned runner version." 1
        ('\x7b' :: ("version".toList ++ '=' :: '"' :: (version ++ ['"', '\x7d']))) ++
      rebuildLines ++
      headers .counter "gh_runner_jit_config_failures_total"
        "JIT config mint failures by HTTP status." ++
      failureLines ++ repoLines.flatten
  return lines.flatMap (· ++ ['\n'])

end Homelab.RunnerMetrics.Reference
