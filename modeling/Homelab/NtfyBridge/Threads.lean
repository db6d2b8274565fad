import Homelab.Effects.Interpretation
import Homelab.Effects.Linearization
import Homelab.NtfyBridge.Delivery

/-! # Requests next to each other

`ThreadingHTTPServer` answers each request in a thread of its own. The counters, the audit log
and standard error are common to all threads, and `_COUNTER_LOCK` keeps the counters.
-/

namespace Homelab.NtfyBridge

open Effects Text
open Autodeploy.Subcommand (PyStr literal)

/-! ## What a thread says -/

inductive Counter
  | sendFailures
  | alertsTotal
deriving DecidableEq

def State.value (state : State) : Counter → Nat
  | .sendFailures => state.sendFailures
  | .alertsTotal => state.alertsTotal

def State.put (state : State) (value : Nat) : Counter → State
  | .sendFailures => { state with sendFailures := value }
  | .alertsTotal => { state with alertsTotal := value }

/-- What takes no lock: the attempts of one `send_ntfy`, a line that is appended to the audit
log, and one that is printed. -/
inductive Note
  | post (request : Request) (sent : Sent)
  | append (text : Line)
  | print (line : PyStr)

def Note.on (state : State) : Note → State
  | .post request sent => { state with sent := state.sent ++ [(request, sent)] }
  | .append text => { state with log := state.log ++ text }
  | .print line => { state with fallback := state.fallback ++ [line] }

inductive Statement
  | count (counter : Counter)
  | read (counter : Counter)
  | note (note : Note)

def Statement.Answer : Statement → Type
  | .read _ => Nat
  | _ => Unit

abbrev statements : Interface := ⟨Statement, Statement.Answer⟩

abbrev Thread := Program statements

def say (note : Note) : Thread Unit := .call (.note note) .done

def count (counter : Counter) : Thread Unit := .call (.count counter) .done

def load (counter : Counter) : Thread Nat := .call (.read counter) .done

def andThen {α β : Type} (thread : Thread (Except Raised α))
    (next : α → Thread (Except Raised β)) : Thread (Except Raised β) := do
  match ← thread with
  | .error raised => return .error raised
  | .ok result => next result

/-! ## Handlers -/

/-- `audit`. -/
def World.auditing (world : World) (index : Nat) (status : String)
    (fields : List (String × Value)) : Thread (Except Raised Unit) :=
  let line := auditLine (world.clock index) status fields
  if world.opens index then
    match scalars line with
    | none => return .error .unicodeEncode
    | some text => do
        say (.append text)
        return .ok ()
  else do
    say (.print line)
    return .ok ()

/-- `send_ntfy`, once the request is made. -/
def sending (request : Request) (sent : Sent) : Thread Unit := do
  say (.post request sent)
  if sent.failed then count .sendFailures

/-- `handle_alert`, once the alert is counted. -/
def World.delivering (world : World) (index : Nat) (alert : Alert) (groupStatus : Value) :
    Thread (Except Raised Bool) :=
  match world.compose index alert groupStatus with
  | .error raised => return .error raised
  | .ok message =>
      match sendNtfy (world.answers index) message.title message.body message.priority
          message.tags with
      | .error raised => return .error raised
      | .ok (request, sent) => do
          sending request sent
          let delivered := accepted sent.code
          andThen (world.auditing index (if delivered then "ok" else "fail")
            (message.fields sent.code)) fun _ => return .ok delivered

/-- `handle_alert`. -/
def World.handling (world : World) (index : Nat) (alert : Alert) (groupStatus : Value) :
    Thread (Except Raised Bool) := do
  count .alertsTotal
  world.delivering index alert groupStatus

/-- The loop of `process_payload`, from the alert with that index on. -/
def World.processing (world : World) (groupStatus : Value) (index : Nat) :
    List Alert → Thread (Except Raised Bool)
  | [] => return .ok true
  | alert :: rest =>
      andThen (world.handling index alert groupStatus) fun delivered =>
        andThen (world.processing groupStatus (index + 1) rest) fun ok =>
          return .ok (delivered && ok)

structure Reply where
  status : Nat
  headers : List (String × String)
  body : Line

def Reply.bare (status : Nat) : Reply := ⟨status, [], []⟩

def replies : Except Raised Bool → List Reply
  | .ok true => [.bare 204]
  | .ok false => [.bare 500]
  | .error _ => []

/-- `do_POST`. -/
def World.posting (world : World) (body : Body) : Thread (List Reply) :=
  match body with
  | .invalid => return [.bare 400]
  | .payload payload => do
      let outcome ← world.processing (payload.status.getD (.str (literal "firing"))) 0
        (payload.alerts.getD [])
      return replies outcome

def counterText (name help : String) (value : Nat) : Line :=
  "# HELP ".toList ++ name.toList ++ ' ' :: help.toList ++ '\n' :: "# TYPE ".toList ++
    name.toList ++ ' ' :: "counter".toList ++ '\n' :: name.toList ++
    ' ' :: (toString value).toList ++ ['\n']

/-- `render_metrics`, of the values that are in the counters. -/
def renderMetrics (sendFailures alertsTotal : Nat) : Line :=
  counterText "ntfy_bridge_send_failures_total" "ntfy POSTs that exhausted every retry."
      sendFailures ++
    counterText "ntfy_bridge_alerts_total" "Alerts processed by the bridge." alertsTotal

def metricsReply (sendFailures alertsTotal : Nat) : Reply :=
  let payload := Utf8.encode (renderMetrics sendFailures alertsTotal)
  ⟨200, [("Content-Type", "text/plain; version=0.0.4"),
    ("Content-Length", toString payload.length)], payload⟩

/-- `do_GET`. The counters are read one after the other. -/
def getting (path : String) : Thread (List Reply) :=
  if path = "/metrics" then do
    let sendFailures ← load .sendFailures
    let alertsTotal ← load .alertsTotal
    return [metricsReply sendFailures alertsTotal]
  else if path ∈ ["/healthz", "/health", "/"] then
    return [⟨200, [("Content-Type", "text/plain")], "ok\n".toList⟩]
  else return [.bare 404]

/-- A request, and for a `POST` what is outside the bridge. -/
inductive Call
  | post (world : World) (body : Body)
  | get (path : String)

def Call.thread : Call → Thread (List Reply)
  | .post world body => world.posting body
  | .get path => getting path

def Call.alone : Call → State
  | .post world body => (world.doPost body .fresh).2
  | .get _ => .fresh

/-! ## Statements as steps -/

def Statement.on (state : State) : Statement → State
  | .count counter => state.put (state.value counter + 1) counter
  | .read _ => state
  | .note own => own.on state

def atomic : System statements State where
  Step state statement answer after :=
    match statement, answer with
    | .count counter, _ => after = state.put (state.value counter + 1) counter
    | .read counter, (answer : Nat) => answer = state.value counter ∧ after = state
    | .note own, _ => after = own.on state

def applied (state : State) (said : List Statement) : State :=
  said.foldl Statement.on state

def Statement.counts (counter : Counter) : Statement → Bool
  | .count other => decide (other = counter)
  | _ => false

theorem atomic_on {state after : State} {statement : Statement} {answer : statement.Answer}
    (step : atomic.Step state statement answer after) : after = statement.on state := by
  cases statement with
  | count counter => exact step
  | read counter => exact step.2
  | note note => exact step

@[simp] theorem value_put (state : State) (value : Nat) (counter other : Counter) :
    (state.put value counter).value other =
      if counter = other then value else state.value other := by
  cases counter <;> cases other <;> rfl

@[simp] theorem value_note (state : State) (note : Note) (counter : Counter) :
    (note.on state).value counter = state.value counter := by
  cases note <;> cases counter <;> rfl

theorem value_on (state : State) (statement : Statement) (counter : Counter) :
    (statement.on state).value counter =
      state.value counter + if statement.counts counter then 1 else 0 := by
  cases statement with
  | count other =>
      rw [Statement.on, value_put]
      by_cases same : other = counter
      · simp [Statement.counts, same]
      · simp [Statement.counts, same]
  | read other => rfl
  | note note => exact value_note state note counter

theorem value_applied (state : State) (said : List Statement) (counter : Counter) :
    (applied state said).value counter =
      state.value counter + said.countP (Statement.counts counter) := by
  induction said generalizing state with
  | nil => rfl
  | cons statement rest induction =>
      rw [applied, List.foldl_cons]
      refine (induction _).trans ?_
      rw [value_on, List.countP_cons]
      omega

theorem applied_append (state : State) (first second : List Statement) :
    applied state (first ++ second) = applied (applied state first) second :=
  List.foldl_append

/-! ## A thread on its own -/

/-- Wherever one stops, no more failures are counted than alerts, and so many. -/
def Covered (credit : Nat) (said : List Statement) : Prop :=
  ∀ front, front <+: said →
    front.countP (Statement.counts .sendFailures) ≤
      credit + front.countP (Statement.counts .alertsTotal)

theorem Covered.nil (credit : Nat) : Covered credit [] := by
  intro front within
  rw [List.prefix_nil.mp within]
  exact Nat.zero_le _

theorem Covered.of_few {credit : Nat} {said : List Statement}
    (few : said.countP (Statement.counts .sendFailures) ≤ credit) : Covered credit said :=
  fun _ within => (within.sublist.countP_le.trans few).trans (Nat.le_add_right _ _)

theorem Covered.append {credit : Nat} {first second : List Statement}
    (covered : Covered credit first) (more : Covered 0 second) :
    Covered credit (first ++ second) := by
  rintro front ⟨rest, whole⟩
  rcases List.append_eq_append_iff.mp whole with ⟨left, split, _⟩ | ⟨own, split, inside⟩
  · exact covered front ⟨left, split.symm⟩
  · have before := covered first (List.prefix_refl first)
    have after := more own ⟨rest, inside.symm⟩
    rw [split, List.countP_append, List.countP_append]
    omega

/-- An alert that is counted pays for a failure. -/
theorem Covered.alert {said : List Statement} (covered : Covered 1 said) :
    Covered 0 (.count .alertsTotal :: said) := by
  intro front within
  cases front with
  | nil => exact Nat.zero_le _
  | cons first rest =>
      rcases List.cons_prefix_cons.mp within with ⟨same, inside⟩
      have later := covered rest inside
      subst same
      rw [List.countP_cons_of_neg (by decide), List.countP_cons_of_pos (by decide)]
      omega

/-- The thread says these statements and ends in this result, whatever the others do, and a
state after it is what the plain program leaves. -/
def Behaves {α : Type} (credit : Nat) (thread : Thread α) (plain : State → α × State) : Prop :=
  ∃ said result, thread.Oblivious result said ∧ Covered credit said ∧
    ∀ state, plain state = (result, applied state said)

section Behaving

variable {α β : Type} {credit : Nat} {thread : Thread α} {plain plain' : State → α × State}

theorem Behaves.done (result : α) : Behaves credit (.done result) fun state => (result, state) :=
  ⟨[], result, ⟨rfl, rfl⟩, .nil credit, fun _ => rfl⟩

theorem Behaves.congr (behaves : Behaves credit thread plain)
    (same : ∀ state, plain' state = plain state) : Behaves credit thread plain' := by
  rcases behaves with ⟨said, result, oblivious, covered, agree⟩
  exact ⟨said, result, oblivious, covered, fun state => (same state).trans (agree state)⟩

theorem Behaves.bind {next : α → Thread β} {later : α → State → β × State}
    (behaves : Behaves credit thread plain)
    (each : ∀ result, Behaves 0 (next result) (later result)) :
    Behaves credit (thread >>= next) fun state => later (plain state).1 (plain state).2 := by
  rcases behaves with ⟨said, result, oblivious, covered, agree⟩
  rcases each result with ⟨more, last, oblivious', covered', agree'⟩
  refine ⟨said ++ more, last, oblivious.bind oblivious', covered.append covered', fun state => ?_⟩
  simp only [agree, agree', applied_append]

theorem Behaves.alert (behaves : Behaves 1 thread plain) :
    Behaves 0 (count .alertsTotal >>= fun _ => thread) fun state =>
      plain { state with alertsTotal := state.alertsTotal + 1 } := by
  rcases behaves with ⟨said, result, oblivious, covered, agree⟩
  exact ⟨.count .alertsTotal :: said, result, ⟨said, rfl, fun _ => oblivious⟩, covered.alert,
    fun state => agree _⟩

/-- What follows without threads, if nothing was raised. -/
def plainThen (plain : State → Except Raised α × State)
    (later : α → State → Except Raised β × State) (state : State) : Except Raised β × State :=
  match plain state with
  | (.error raised, state) => (.error raised, state)
  | (.ok result, state) => later result state

theorem Behaves.andThen {thread : Thread (Except Raised α)}
    {plain : State → Except Raised α × State} {next : α → Thread (Except Raised β)}
    {later : α → State → Except Raised β × State} (behaves : Behaves credit thread plain)
    (each : ∀ result, Behaves 0 (next result) (later result)) :
    Behaves credit (andThen thread next) (plainThen plain later) := by
  rcases behaves with ⟨said, outcome, oblivious, covered, agree⟩
  cases outcome with
  | error raised =>
      have ends : (NtfyBridge.andThen thread next).Oblivious (.error raised) (said ++ []) :=
        oblivious.bind ⟨rfl, rfl⟩
      rw [List.append_nil] at ends
      exact ⟨said, .error raised, ends, covered, fun state => by rw [plainThen, agree]⟩
  | ok result =>
      rcases each result with ⟨more, last, oblivious', covered', agree'⟩
      refine ⟨said ++ more, last, oblivious.bind oblivious', covered.append covered',
        fun state => ?_⟩
      simp only [plainThen, agree, agree', applied_append]

end Behaving

section Handlers

variable (world : World) (index : Nat) (groupStatus : Value)

theorem auditing_behaves (status : String) (fields : List (String × Value)) :
    Behaves 0 (world.auditing index status fields) (world.audit index status fields) := by
  have once (note : Note) : Covered 0 [.note note] := .of_few (Nat.le_refl 0)
  by_cases opens : world.opens index
  · cases encoded : scalars (auditLine (world.clock index) status fields) with
    | none =>
        refine ⟨[], .error .unicodeEncode, ?_, .nil 0, fun state => ?_⟩
        · simp only [World.auditing, opens, encoded, if_true]
          exact ⟨rfl, rfl⟩
        · simp only [World.audit, opens, encoded, if_true]
          rfl
    | some text =>
        refine ⟨[.note (.append text)], .ok (), ?_, once _, fun state => ?_⟩
        · simp only [World.auditing, opens, encoded, if_true]
          exact ⟨[], rfl, fun _ => ⟨rfl, rfl⟩⟩
        · simp only [World.audit, opens, encoded, if_true]
          rfl
  · refine ⟨[.note (.print (auditLine (world.clock index) status fields))], .ok (), ?_, once _,
      fun state => ?_⟩
    · simp only [World.auditing, opens]
      exact ⟨[], rfl, fun _ => ⟨rfl, rfl⟩⟩
    · simp only [World.audit, opens]
      rfl

theorem sending_behaves (request : Request) (sent : Sent) :
    Behaves 1 (sending request sent) fun state => ((), { state with
      sendFailures := state.sendFailures + if sent.failed then 1 else 0
      sent := state.sent ++ [(request, sent)] }) := by
  cases failed : sent.failed with
  | false =>
      refine ⟨[.note (.post request sent)], (), ?_, .of_few (Nat.zero_le 1), fun state => rfl⟩
      rw [sending, failed]
      exact ⟨[], rfl, fun _ => ⟨rfl, rfl⟩⟩
  | true =>
      refine ⟨[.note (.post request sent), .count .sendFailures], (), ?_,
        .of_few (Nat.le_refl 1), fun state => rfl⟩
      rw [sending, failed]
      exact ⟨_, rfl, fun _ => ⟨[], rfl, fun _ => ⟨rfl, rfl⟩⟩⟩

/-- `handle_alert` in a thread does what it does alone. -/
theorem handling_behaves (alert : Alert) :
    Behaves 0 (world.handling index alert groupStatus)
      (world.handleAlert index alert groupStatus) := by
  rw [World.handling]
  cases composed : world.compose index alert groupStatus with
  | error raised =>
      rw [World.delivering, composed]
      refine (Behaves.done (Except.error raised)).alert.congr fun state => ?_
      rw [World.handleAlert, composed]
  | ok message =>
      cases made : sendNtfy (world.answers index) message.title message.body message.priority
          message.tags with
      | error raised =>
          simp only [World.delivering, composed, made]
          refine (Behaves.done (Except.error raised)).alert.congr fun state => ?_
          simp only [World.handleAlert, composed, made]
      | ok pair =>
          rcases pair with ⟨request, sent⟩
          simp only [World.delivering, composed, made]
          have audited := fun _ : Unit => (auditing_behaves world index
            (if accepted sent.code then "ok" else "fail") (message.fields sent.code)).andThen
              fun _ => Behaves.done (.ok (accepted sent.code))
          refine ((sending_behaves request sent).bind audited).alert.congr fun state => ?_
          simp only [World.handleAlert, composed, made, plainThen]
          rcases world.audit index _ _ _ with ⟨_ | _, _⟩ <;> rfl

theorem processing_behaves (alerts : List Alert) :
    Behaves 0 (world.processing groupStatus index alerts)
      (world.processAlerts groupStatus index alerts) := by
  induction alerts generalizing index with
  | nil => exact .done _
  | cons alert rest induction =>
      have later (delivered : Bool) := (induction (index + 1)).andThen fun ok =>
        Behaves.done (.ok (delivered && ok))
      refine ((handling_behaves world index groupStatus alert).andThen later).congr
        fun state => ?_
      rw [World.processAlerts, plainThen]
      rcases world.handleAlert index alert groupStatus state with ⟨_ | _, after⟩
      · rfl
      · simp only [plainThen]
        rcases world.processAlerts groupStatus (index + 1) rest after with ⟨_ | _, _⟩ <;> rfl

/-- `do_POST` in a thread does what it does alone. -/
theorem posting_behaves (body : Body) :
    Behaves 0 (world.posting body) fun state =>
      ((world.doPost body state).1.map Reply.bare, (world.doPost body state).2) := by
  cases body with
  | invalid => exact .done _
  | payload payload =>
      refine ((processing_behaves world 0 (payload.status.getD (.str (literal "firing")))
        (payload.alerts.getD [])).bind fun outcome => .done (replies outcome)).congr
          fun state => ?_
      rw [World.doPost, World.processPayload]
      rcases world.processAlerts _ 0 _ state with ⟨_ | _ | _, _⟩ <;> rfl

end Handlers

end Homelab.NtfyBridge
