import Homelab.Autodeploy.Subcommand
import Homelab.Foundation.Double
import Homelab.Foundation.EncodedWord

/-! # The ntfy bridge

Each alert of a webhook request becomes one notification and one line of the audit log.
-/

namespace Homelab.NtfyBridge

open Text
open Autodeploy.Subcommand (PyChar PyStr literal)

inductive Raised
  | unicodeEncode
  | attribute
  | type
deriving DecidableEq

/-! ## Texts -/

/-- The characters of a text, unless half of a surrogate pair is among them. -/
def scalars : PyStr → Option Line
  | [] => some []
  | .scalar char :: rest => (scalars rest).map (char :: ·)
  | .half _ :: _ => none

/-- `text.encode("latin-1")`, where that does not raise. -/
def latin1 (text : PyStr) : Option Line :=
  match scalars text with
  | none => none
  | some chars => if Base64.Bytes chars then some chars else none

/-- `text.encode("utf-8")`. -/
def utf8 (text : PyStr) : Except Raised Line :=
  match scalars text with
  | none => .error .unicodeEncode
  | some chars => .ok (Utf8.encode chars)

def headerSafe (value : PyStr) : Except Raised PyStr :=
  match latin1 value with
  | some _ => .ok value
  | none => do
      let bytes ← utf8 value
      .ok (literal "=?UTF-8?B?" ++ (Base64.encode bytes).map .scalar ++ literal "?=")

/-! ## Sending -/

inductive Answer
  | status (code : Nat)
  | httpError (code : Nat)
  | exception
deriving DecidableEq

/-- A line of the header ends that the next one does not continue. -/
def illegal : Line → Bool
  | [] => false
  | char :: rest =>
      (char = '\n' && !(rest.head?.any fun next => next = ' ' || next = '\t')) ||
        (char = '\r' && !(rest.head?.any fun next => next = ' ' || next = '\t' || next = '\n')) ||
        illegal rest

/-- `http.client` takes the value. -/
def takesHeader (value : PyStr) : Bool :=
  match latin1 value with
  | none => false
  | some bytes => !illegal bytes

structure Request where
  data : Line
  title : PyStr
  priority : PyStr
  tags : PyStr

def Request.headers (request : Request) : List (String × PyStr) :=
  [("Title", request.title), ("Priority", request.priority), ("Tags", request.tags),
    ("Markdown", literal "yes")]

/-- `urlopen`, where `answer` is what the network would say. -/
def urlopen (request : Request) (answer : Answer) : Answer :=
  if request.headers.all fun header => takesHeader header.2 then answer else .exception

def retryBackoffSeconds : List Nat := [2, 4, 8, 16, 32]

/-- The code that is returned, how often `urlopen` was called, what was slept in between, and
whether the failure was counted. -/
structure Sent where
  code : Nat
  opened : Nat
  slept : List Nat
  failed : Bool
deriving DecidableEq

/-- The loop over the delays, after the first `number` attempts. -/
def attempts (answers : Nat → Answer) (number : Nat) : List (Option Nat) → Sent
  | [] => ⟨0, number, [], true⟩
  | delay :: later =>
      match answers number with
      | .status code => ⟨code, number + 1, [], false⟩
      | .httpError code => ⟨code, number + 1, [], false⟩
      | .exception =>
          let sent := attempts answers (number + 1) later
          { sent with slept := delay.toList ++ sent.slept }

/-- `(*RETRY_BACKOFF_SECONDS, None)`. -/
def delays : List (Option Nat) := retryBackoffSeconds.map some ++ [none]

/-! ## The payload -/

inductive Value
  | null
  | str (text : PyStr)
deriving DecidableEq

inductive Member
  | null
  | str (text : PyStr)
  | object (fields : String → Option Value)

structure Alert where
  status : Option Value
  labels : Option Member
  annotations : Option Member
  startsAt : Option Value
  endsAt : Option Value

structure Payload where
  status : Option Value
  alerts : Option (List Alert)

/-- `alert.get("labels", {})` as something that has a `get`. -/
def fieldsOf : Option Member → Except Raised (String → Option Value)
  | none => .ok fun _ => none
  | some (.object fields) => .ok fields
  | some _ => .error .attribute

def formatted : Value → PyStr
  | .null => literal "None"
  | .str text => text

def Value.is (text : String) (value : Value) : Bool := value = .str (literal text)

/-! ## The world -/

/-- A time: whether it has a zone, microseconds of it, and its year. -/
structure Stamp where
  aware : Bool
  micros : Int
  year : Nat

/-- What is not up to the bridge. For each alert: the answers to the attempts, the clock as a
time and as it is printed, and whether the audit log can be opened. -/
structure World where
  answers : Nat → Nat → Answer
  now : Nat → Stamp
  clock : Nat → Line
  opens : Nat → Bool
  fromisoformat : PyStr → Option Stamp
  clock_plain : ∀ alert, ∀ char ∈ clock alert, char ≠ ' ' ∧ char ≠ '\n' ∧ char ≠ '='

def zoned (text : PyStr) : PyStr :=
  text.flatMap fun char => if char = .scalar 'Z' then literal "+00:00" else [char]

/-- `datetime.fromisoformat(value.replace("Z", "+00:00"))`, where that does not raise. -/
def World.read (world : World) : Option Value → Option Stamp
  | some (.str text) => world.fromisoformat (zoned text)
  | _ => none

/-- `int((end - start).total_seconds())`. -/
def seconds (start stop : Stamp) : Int :=
  Python.trunc ((Double.nearest ((stop.micros - start.micros : ℚ) / 1000000)).getD 0)

def duration (minutes : Nat) : String :=
  if 1440 ≤ minutes then s!"{minutes / 1440}d {minutes % 1440 / 60}h"
  else s!"{minutes / 60}h {minutes % 60}m"

/-- `alert_age`. Whatever raises in it gives no age. -/
def World.alertAge (world : World) (index : Nat) (alert : Alert) (status : Value) :
    PyStr × Bool :=
  let resolved := status.is "resolved"
  match world.read alert.startsAt,
      (if resolved then world.read alert.endsAt else some (world.now index)) with
  | some start, some stop =>
      let seconds := seconds start stop
      if !start.aware || !stop.aware || seconds < 0 || start.year < 2000 then ([], false)
      else
        let lead := if resolved then "Duration:" else "Active for"
        (literal s!"{lead} {duration (seconds.toNat / 60)}\n\n", 86400 ≤ seconds)
  | _, _ => ([], false)

/-! ## One alert -/

def severityToPriority (severity : Value) : PyStr :=
  if severity.is "crit" then literal "urgent"
  else if severity.is "warn" then literal "high"
  else literal "default"

def severityToTags (severity : Value) : PyStr :=
  if severity.is "crit" then literal "rotating_light"
  else if severity.is "warn" then literal "warning"
  else if severity.is "info" then literal "information_source"
  else literal "loud_sound"

def orHost : Value → Value
  | .null => .str (literal "host")
  | .str [] => .str (literal "host")
  | service => service

structure Message where
  title : Value
  body : PyStr
  priority : PyStr
  tags : PyStr
  status : Value
  alertname : Value
  severity : Value
  service : Value

/-- `age + description`. -/
def extend (age : PyStr) : Value → Except Raised PyStr
  | .null => .error .type
  | .str description => .ok (age ++ description)

/-- `handle_alert` up to the notification. -/
def World.compose (world : World) (index : Nat) (alert : Alert) (groupStatus : Value) :
    Except Raised Message := do
  let status := alert.status.getD groupStatus
  let labels ← fieldsOf alert.labels
  let annots ← fieldsOf alert.annotations
  let alertname := (labels "alertname").getD (.str (literal "unknown"))
  let severity := (labels "severity").getD (.str (literal "info"))
  let service := (labels "service").getD (.str [])
  let summary := (annots "summary").getD alertname
  let description := (annots "description").getD (.str [])
  let (age, ongoing) := world.alertAge index alert status
  let body ← extend age description
  if status.is "resolved" then
    .ok ⟨.str (literal "[RESOLVED] " ++ formatted summary), body, literal "low",
      literal "white_check_mark", status, alertname, severity, orHost service⟩
  else
    let title := if ongoing then .str (literal "[ONGOING] " ++ formatted summary) else summary
    .ok ⟨title, body, severityToPriority severity, severityToTags severity, status, alertname,
      severity, orHost service⟩

def textOf : Value → Except Raised PyStr
  | .null => .error .attribute
  | .str text => .ok text

def sendNtfy (answers : Nat → Answer) (title : Value) (body priority tags : PyStr) :
    Except Raised (Request × Sent) := do
  let data ← utf8 body
  let title ← textOf title
  let title ← headerSafe title
  let request : Request := ⟨data, title, priority, tags⟩
  .ok (request, attempts (fun number => urlopen request (answers number)) 0 delays)

/-- The counters, the audit log, the lines that went to standard error in its place, and what
was sent. -/
structure State where
  sendFailures : Nat
  alertsTotal : Nat
  log : Line
  fallback : List PyStr
  sent : List (Request × Sent)

/-- `f"{k}={v}"`, if the value is not `None`. -/
def fieldText (field : String × Value) : Option PyStr :=
  match field.2 with
  | .null => none
  | .str text => some (literal field.1 ++ literal "=" ++ text)

def logfmt (fields : List (String × Value)) : PyStr :=
  (literal " ").intercalate (fields.filterMap fieldText)

def auditLine (clock : Line) (status : String) (fields : List (String × Value)) : PyStr :=
  clock.map .scalar ++ literal " script=vmalert step=alert status=" ++ literal status ++
    literal " " ++ logfmt fields ++ literal "\n"

/-- `audit`. A line that cannot be encoded is not written. -/
def World.audit (world : World) (index : Nat) (status : String) (fields : List (String × Value))
    (state : State) : Except Raised Unit × State :=
  let line := auditLine (world.clock index) status fields
  if world.opens index then
    match scalars line with
    | none => (.error .unicodeEncode, state)
    | some text => (.ok (), { state with log := state.log ++ text })
  else (.ok (), { state with fallback := state.fallback ++ [line] })

def Message.fields (message : Message) (code : Nat) : List (String × Value) :=
  [("alertname", message.alertname), ("severity", message.severity),
    ("service", message.service), ("firing", message.status),
    ("http", .str (literal (toString code)))]

/-- `200 <= http_code < 300`. -/
def accepted (code : Nat) : Bool := 200 ≤ code && code < 300

def World.handleAlert (world : World) (index : Nat) (alert : Alert) (groupStatus : Value)
    (state : State) : Except Raised Bool × State :=
  let state := { state with alertsTotal := state.alertsTotal + 1 }
  match world.compose index alert groupStatus with
  | .error raised => (.error raised, state)
  | .ok message =>
      match sendNtfy (world.answers index) message.title message.body message.priority
          message.tags with
      | .error raised => (.error raised, state)
      | .ok (request, sent) =>
          let state := { state with
            sendFailures := state.sendFailures + if sent.failed then 1 else 0
            sent := state.sent ++ [(request, sent)] }
          let delivered := accepted sent.code
          match world.audit index (if delivered then "ok" else "fail")
              (message.fields sent.code) state with
          | (.error raised, state) => (.error raised, state)
          | (.ok (), state) => (.ok delivered, state)

/-! ## A request -/

def World.processAlerts (world : World) (groupStatus : Value) (index : Nat) :
    List Alert → State → Except Raised Bool × State
  | [], state => (.ok true, state)
  | alert :: rest, state =>
      match world.handleAlert index alert groupStatus state with
      | (.error raised, state) => (.error raised, state)
      | (.ok delivered, state) =>
          match world.processAlerts groupStatus (index + 1) rest state with
          | (.error raised, state) => (.error raised, state)
          | (.ok ok, state) => (.ok (delivered && ok), state)

def World.processPayload (world : World) (payload : Payload) (state : State) :
    Except Raised Bool × State :=
  world.processAlerts (payload.status.getD (.str (literal "firing"))) 0
    (payload.alerts.getD []) state

/-- What `json.loads` makes of the body. -/
inductive Body
  | invalid
  | payload (payload : Payload)

/-- `do_POST`: the statuses that are answered. After an exception there is none. -/
def World.doPost (world : World) (body : Body) (state : State) : List Nat × State :=
  match body with
  | .invalid => ([400], state)
  | .payload payload =>
      match world.processPayload payload state with
      | (.ok true, state) => ([204], state)
      | (.ok false, state) => ([500], state)
      | (.error _, state) => ([], state)

end Homelab.NtfyBridge
