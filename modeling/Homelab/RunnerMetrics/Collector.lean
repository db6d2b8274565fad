import Homelab.Foundation.Exposition
import Homelab.Foundation.GoJsonRoundTrip
import Mathlib.Data.Char
import Mathlib.Data.List.Lex

/-! # Metrics of the runner supervisor

What the Go collector makes of the supervisor's status and heartbeat files.
-/

namespace Homelab.RunnerMetrics

open Text GoText GoJson

/-! ## Reading -/

/-- A `map[string]any` that is read from JSON, field by field. Of fields of the same name the
last one counts. -/
abbrev Object := List (Line × Tree)

def Object.get (fields : Object) (name : Line) : Option Tree := fields.reverse.lookup name

/-- `keys`, in the order of their bytes, which is that of their characters. -/
def keys {α : Type} (fields : List (Line × α)) : List Line :=
  (fields.map Prod.fst).dedup.mergeSort fun one other => decide (one ≤ other)

/-- A map, or nothing, as `v.(map[string]any)` leaves it. -/
def asObject : Option Tree → Object
  | some (.dict fields) => fields
  | _ => []

def number : Option Tree → Int
  | some (.bool value) => if value then 1 else 0
  | some (.str text) => (parseInt (trimSpace text)).value
  | some (.number numeral) =>
      match numeral.int64 with
      | some value => value
      | none =>
          match numeral.float64 with
          | some value => if value < 2 ^ 63 ∧ -2 ^ 63 ≤ value then Python.trunc value else 0
          | none => 0
  | _ => 0

/-- `object`, of a file that may not be there. -/
def object (file : Option Line) : Object := asObject (file.bind fun data => parse (runes data))

/-! ## Printing -/

def labelEscaper (char : Char) : Line :=
  if char = '\\' then ['\\', '\\']
  else if char = '\n' then ['\\', 'n']
  else if char = '"' then ['\\', '"']
  else [char]

def label (text : Line) : Line := text.flatMap labelEscaper

def spaced : List Line → Line
  | [] => []
  | [word] => word
  | word :: rest => word ++ ' ' :: spaced rest

/- `fmt.Sprint`. A map is printed in the order of its keys. -/
mutual

def sprint : Tree → Line
  | .null => "<nil>".toList
  | .bool value => (if value then "true" else "false").toList
  | .number numeral => numeral.text
  | .str text => text
  | .list items => '[' :: (spaced (sprintItems items) ++ [']'])
  | .dict fields =>
      let texts := sprintFields fields
      let words := (keys texts).map fun name =>
        name ++ ':' :: (texts.reverse.lookup name).getD []
      "map[".toList ++ spaced words ++ [']']

def sprintItems : List Tree → List Line
  | [] => []
  | item :: rest => sprint item :: sprintItems rest

def sprintFields : List (Line × Tree) → List (Line × Line)
  | [] => []
  | (name, tree) :: rest => (name, sprint tree) :: sprintFields rest

end

structure Metric where
  name : String
  help : String
  key : String
  kind : Exposition.Kind

def statusMetrics : List Metric :=
  [⟨"gh_runner_idle_count", "Idle ephemeral runner containers the supervisor believes are up.",
      "idle_count", .gauge⟩,
    ⟨"gh_runner_orphan_containers", "Exited job containers awaiting cleanup.",
      "orphan_containers", .gauge⟩,
    ⟨"gh_runner_last_job_exit_code", "Exit code of the most recent job container.",
      "last_job_exit_code", .gauge⟩,
    ⟨"gh_runner_jobs_total", "Jobs completed since supervisor start.", "jobs_total", .counter⟩,
    ⟨"gh_runner_jobs_failed_total", "Jobs that exited non-zero since supervisor start.",
      "jobs_failed_total", .counter⟩,
    ⟨"gh_runner_github_api_auth_failures_total", "GitHub API 401/403 responses (PAT problem).",
      "github_api_auth_failures_total", .counter⟩,
    ⟨"gh_runner_jit_last_success_timestamp_seconds", "Unix ts of the last successful JIT mint.",
      "jit_last_success_ts", .gauge⟩,
    ⟨"gh_runner_github_api_rate_remaining", "GitHub REST rate-limit headroom.",
      "github_api_rate_remaining", .gauge⟩,
    ⟨"gh_runner_image_build_timestamp_seconds",
      "When the runner image was built (age -> staleness).", "image_build_timestamp", .gauge⟩]

def rebuildMetrics : List Metric :=
  [⟨"gh_runner_rebuild_last_attempt_timestamp_seconds",
      "Unix ts of the last runner-image rebuild attempt (0 if never).", "last_attempt_ts",
      .gauge⟩,
    ⟨"gh_runner_rebuild_last_success_timestamp_seconds",
      "Unix ts of the last SUCCESSFUL runner-image rebuild (0 if never).", "last_success_ts",
      .gauge⟩,
    ⟨"gh_runner_rebuild_last_exit_code",
      "Exit code of the last rebuild attempt (non-zero => failed push/build).", "last_exit_code",
      .gauge⟩]

def repoMetrics : List Metric :=
  [⟨"gh_runner_registered_count", "Runners GitHub lists for the repo.", "registered", .gauge⟩,
    ⟨"gh_runner_online_count", "Online runners for the repo.", "online", .gauge⟩,
    ⟨"gh_runner_busy_count", "Busy runners (running a job) for the repo.", "busy", .gauge⟩,
    ⟨"gh_runner_offline_count", "Offline runners (orphans pending reap) for the repo.", "offline",
      .gauge⟩,
    ⟨"gh_runner_queued_jobs", "Queued homelab-build jobs awaiting a runner.", "queued_jobs",
      .gauge⟩]

def header (name help : String) (kind : Exposition.Kind) : Line :=
  "# HELP ".toList ++ name.toList ++ ' ' :: help.toList ++ '\n' :: "# TYPE ".toList ++
    name.toList ++ ' ' :: kind.text ++ ['\n']

def sampleLine (name : String) (labels : Line) (value : Int) : Line :=
  name.toList ++ labels ++ ' ' :: decimal value ++ ['\n']

def emit (name help : String) (kind : Exposition.Kind) (value : Int) (labels : Line) : Line :=
  header name help kind ++ sampleLine name labels value

/-- `{name="value"}`. -/
def labelSet (name : String) (value : Line) : Line :=
  '\x7b' :: (name.toList ++ '=' :: '"' :: (label value ++ ['"', '\x7d']))

/-- The heartbeat of the file, or else of the status. It is 0 if there is none. -/
def heartbeatOf (file : Option Line) (status : Object) : Int :=
  let heartbeat := number (some (.str (runes (file.getD []))))
  if heartbeat = 0 then number (status.get "supervisor_heartbeat_ts".toList) else heartbeat

/-- `stale`, where the age is a 64-bit number. -/
def staleOf (heartbeat staleSeconds now : Int) : Int :=
  if heartbeat = 0 ∨ staleSeconds < wrap (now - heartbeat) then 1 else 0

def versionOf (status : Object) : Line :=
  match status.get "runner_version".toList with
  | some tree => sprint tree
  | none => "unknown".toList

def keyed (name labelName : String) (fields : Object) (value : Option Tree → Int) : Line :=
  if fields = [] then sampleLine name (labelSet labelName "none".toList) 0
  else (keys fields).flatMap fun key =>
    sampleLine name (labelSet labelName key) (value (fields.get key))

/-- `Render`, of the contents of the files. -/
def render (statusFile heartbeatFile : Option Line) (staleSeconds now : Int)
    (rebuildFile : Option Line) : Line :=
  let status := object statusFile
  let heartbeat := heartbeatOf heartbeatFile status
  let rebuild := object rebuildFile
  let failures := asObject (status.get "jit_config_failures".toList)
  let repos := asObject (status.get "repos".toList)
  emit "gh_runner_metrics_last_run_unix_seconds" "Unix time of the last Pi emitter run." .gauge
      now [] ++
    emit "gh_runner_supervisor_heartbeat_timestamp_seconds"
      "Unix ts of the last Mac supervisor heartbeat (0 if missing)." .gauge heartbeat [] ++
    emit "gh_runner_heartbeat_stale"
      "1 when the supervisor heartbeat is missing or older than the threshold." .gauge
      (staleOf heartbeat staleSeconds now) [] ++
    (statusMetrics.flatMap fun metric =>
      emit metric.name metric.help metric.kind (number (status.get metric.key.toList)) []) ++
    emit "gh_runner_version_info" "Constant 1; labels the pinned runner version." .gauge 1
      (labelSet "version" (versionOf status)) ++
    (rebuildMetrics.flatMap fun metric =>
      emit metric.name metric.help metric.kind (number (rebuild.get metric.key.toList)) []) ++
    header "gh_runner_jit_config_failures_total" "JIT config mint failures by HTTP status."
      .counter ++
    keyed "gh_runner_jit_config_failures_total" "status" failures number ++
    repoMetrics.flatMap fun metric =>
      header metric.name metric.help metric.kind ++
        keyed metric.name "repo" repos fun info =>
          number ((asObject info).get metric.key.toList)

end Homelab.RunnerMetrics
