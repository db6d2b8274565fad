import Homelab.NtfyBridge.Audit

/-! # What Alertmanager is told

When the answer to a request says what became of its alerts, and the audit log the same.
-/

namespace Homelab.NtfyBridge

open Text
open Autodeploy.Subcommand (PyChar PyStr literal)

/-! ## What an alert says -/

def look (member : Option Member) : String → Option Value :=
  match member with
  | some (.object fields) => fields
  | _ => fun _ => none

namespace Alert

variable (alert : Alert)

def alertname : Value := (look alert.labels "alertname").getD (.str (literal "unknown"))

def severity : Value := (look alert.labels "severity").getD (.str (literal "info"))

def service : Value := orHost ((look alert.labels "service").getD (.str []))

def summary : Value := (look alert.annotations "summary").getD alert.alertname

def description : Value := (look alert.annotations "description").getD (.str [])

def record (groupStatus : Value) (code : Nat) : Record :=
  ⟨alert.status.getD groupStatus, alert.alertname, alert.severity, alert.service,
    .str (literal (toString code))⟩

end Alert

def Readable (member : Option Member) : Prop :=
  match member with
  | none => True
  | some (.object _) => True
  | _ => False

/-! ## What is promised -/

def Answer.code : Answer → Option Nat
  | .status code => some code
  | .httpError code => some code
  | .exception => none

def heard (answers : Nat → Answer) : Option Nat :=
  (List.range 6).findSome? fun number => (answers number).code

/-- What became of an alert: what was sent and how that ended, and its line of the log. -/
structure Report where
  request : Request
  sent : Sent
  line : Line

variable (world : World) (groupStatus : Value)

/-- The report of an alert is true: the request is made of the alert, sending it did not raise,
its code is that of the first answer, and the line says what the alert is. -/
structure Told (entry : Alert × Nat) (report : Report) : Prop where
  composed : ∃ message, world.compose entry.2 entry.1 groupStatus = .ok message ∧
    sendNtfy (world.answers entry.2) message.title message.body message.priority message.tags =
      .ok (report.request, report.sent)
  tried : 0 < report.sent.opened
  heard : report.sent.code =
    (heard fun number => urlopen report.request (world.answers entry.2 number)).getD 0
  single : '\n' ∉ report.line
  states : record report.line = entry.1.record groupStatus report.sent.code

/-- The request is answered once, with 204 exactly where every alert was accepted. Each alert
was sent and counted, and has one line in the audit log. -/
def Truthful (payload : Payload) (state : State) : Prop :=
  let alerts := payload.alerts.getD []
  ∃ (reports : List Report) (after : State),
    List.Forall₂ (Told world (payload.status.getD (.str (literal "firing")))) alerts.zipIdx
      reports ∧
    world.doPost (.payload payload) state =
      ([if ∀ report ∈ reports, accepted report.sent.code then 204 else 500], after) ∧
    after.alertsTotal = state.alertsTotal + alerts.length ∧
    after.sent = state.sent ++ reports.map (fun report => (report.request, report.sent)) ∧
    after.log = state.log ++ joined (reports.map Report.line)

/-- The alert has all that a notification and a line need: labels and annotations that are
objects or left out, a description, a title, and no half of a surrogate pair among them. What
goes into the line is `None` or has neither blanks nor line ends. -/
structure Fit (entry : Alert × Nat) : Prop where
  labelled : Readable entry.1.labels
  annotated : Readable entry.1.annotations
  described : ∃ chars : Line, entry.1.description = .str (chars.map .scalar)
  titled : entry.1.summary ≠ .null ∨ (entry.1.status.getD groupStatus).is "resolved" = true ∨
    (world.alertAge entry.2 entry.1 (entry.1.status.getD groupStatus)).2 = true
  spelled : ∃ chars, scalars (formatted entry.1.summary) = some chars
  plain : ∀ value ∈ [entry.1.status.getD groupStatus, entry.1.alertname, entry.1.severity,
    entry.1.service], value.Plain

/-! ## Composing -/

variable {world groupStatus}

theorem fieldsOf_look {member : Option Member} (readable : Readable member) :
    fieldsOf member = .ok (look member) := by
  cases member with
  | none => rfl
  | some own =>
      cases own with
      | object fields => rfl
      | null => exact readable.elim
      | str text => exact readable.elim

theorem readable_of_ok {member : Option Member} {fields : String → Option Value}
    (read : fieldsOf member = .ok fields) : Readable member := by
  cases member with
  | none => trivial
  | some own =>
      cases own with
      | object fields => trivial
      | null => cases read
      | str text => cases read

/-- What is sent for an alert that can be read, once its description has its age. -/
def World.message (world : World) (index : Nat) (alert : Alert) (groupStatus : Value)
    (body : PyStr) : Message :=
  let status := alert.status.getD groupStatus
  if status.is "resolved" then
    ⟨.str (literal "[RESOLVED] " ++ formatted alert.summary), body, literal "low",
      literal "white_check_mark", status, alert.alertname, alert.severity, alert.service⟩
  else
    ⟨if (world.alertAge index alert status).2 then
        .str (literal "[ONGOING] " ++ formatted alert.summary) else alert.summary,
      body, severityToPriority alert.severity, severityToTags alert.severity, status,
      alert.alertname, alert.severity, alert.service⟩

theorem compose_readable {index : Nat} {alert : Alert} (labelled : Readable alert.labels)
    (annotated : Readable alert.annotations) :
    world.compose index alert groupStatus =
      (extend (world.alertAge index alert (alert.status.getD groupStatus)).1
        alert.description).map (world.message index alert groupStatus) := by
  rw [World.compose, fieldsOf_look labelled, fieldsOf_look annotated]
  simp only [bind, Except.bind]
  rw [← Alert.alertname, ← Alert.severity, ← Alert.service, ← Alert.summary, ← Alert.description]
  cases extend (world.alertAge index alert (alert.status.getD groupStatus)).1
    alert.description with
  | error raised => rfl
  | ok body =>
      simp only [Except.map, World.message]
      split
      · rfl
      · rfl

theorem message_fields (index : Nat) (alert : Alert) (body : PyStr) (code : Nat) :
    (world.message index alert groupStatus body).fields code =
      [("alertname", alert.alertname), ("severity", alert.severity), ("service", alert.service),
        ("firing", alert.status.getD groupStatus), ("http", .str (literal (toString code)))] := by
  rw [World.message]
  split
  · rfl
  · rfl

theorem message_body (index : Nat) (alert : Alert) (body : PyStr) :
    (world.message index alert groupStatus body).body = body := by
  rw [World.message]
  split
  · rfl
  · rfl

/-! ## Sending -/

theorem attempts_code (answers : Nat → Answer) (number : Nat) (delays : List (Option Nat)) :
    (attempts answers number delays).code =
      ((List.range' number delays.length).findSome? fun number =>
        (answers number).code).getD 0 := by
  induction delays generalizing number with
  | nil => rfl
  | cons delay later induction =>
      rw [attempts, List.length_cons, List.range'_succ, List.findSome?_cons]
      cases answers number with
      | status code => rfl
      | httpError code => rfl
      | exception => exact induction (number + 1)

theorem attempts_heard (answers : Nat → Answer) :
    (attempts answers 0 delays).code = (heard answers).getD 0 := by
  rw [attempts_code, heard, List.range_eq_range']
  rfl

theorem attempts_opened (answers : Nat → Answer) (number : Nat) (delays : List (Option Nat)) :
    number ≤ (attempts answers number delays).opened := by
  induction delays generalizing number with
  | nil => exact Nat.le_refl _
  | cons delay later induction =>
      rw [attempts]
      cases answers number with
      | status code => exact Nat.le_succ _
      | httpError code => exact Nat.le_succ _
      | exception => exact (Nat.le_succ _).trans (induction (number + 1))

theorem attempts_tried (answers : Nat → Answer) : 0 < (attempts answers 0 delays).opened := by
  show 0 < (attempts answers 0 (some 2 :: [some 4, some 8, some 16, some 32, none])).opened
  rw [attempts]
  cases answers 0 with
  | status code => exact Nat.zero_lt_one
  | httpError code => exact Nat.zero_lt_one
  | exception => exact Nat.lt_of_lt_of_le Nat.zero_lt_one (attempts_opened answers 1 _)

theorem headerSafe_scalars (chars : Line) :
    ∃ value, headerSafe (chars.map .scalar) = .ok value := by
  by_cases own : Base64.Bytes chars
  · exact ⟨_, headerSafe_latin1 own⟩
  · exact ⟨_, headerSafe_word own⟩

theorem utf8_scalars (chars : Line) : utf8 (chars.map .scalar) = .ok (Utf8.encode chars) := by
  rw [utf8, scalars_map]

/-- Texts without halves of pairs are sent. -/
theorem sendNtfy_scalars (answers : Nat → Answer) (title body : Line) (priority tags : PyStr) :
    ∃ request : Request,
      sendNtfy answers (.str (title.map .scalar)) (body.map .scalar) priority tags =
        .ok (request, attempts (fun number => urlopen request (answers number)) 0 delays) := by
  rcases headerSafe_scalars title with ⟨value, returned⟩
  refine ⟨⟨Utf8.encode body, value, priority, tags⟩, ?_⟩
  rw [sendNtfy, utf8_scalars]
  simp only [textOf, bind, Except.bind, returned]

/-- Only texts without halves of pairs are sent. -/
theorem sendNtfy_ok {answers : Nat → Answer} {title : Value} {body priority tags : PyStr}
    {result : Request × Sent} (sent : sendNtfy answers title body priority tags = .ok result) :
    (∃ chars : Line, body = chars.map .scalar) ∧
      ∃ chars : Line, title = .str (chars.map .scalar) := by
  rw [sendNtfy] at sent
  cases encoded : scalars body with
  | none =>
      simp only [utf8, encoded, bind, Except.bind] at sent
      cases sent
  | some chars =>
      refine ⟨⟨chars, scalars_eq_some.mp encoded⟩, ?_⟩
      cases title with
      | null =>
          simp only [utf8, encoded, textOf, bind, Except.bind] at sent
          cases sent
      | str text =>
          cases spelled : scalars text with
          | none =>
              simp only [utf8, encoded, textOf, headerSafe_half spelled, bind, Except.bind] at sent
              cases sent
          | some own => exact ⟨own, by rw [scalars_eq_some.mp spelled]⟩

/-! ## Texts of an alert -/

theorem alertAge_scalars (world : World) (index : Nat) (alert : Alert) (status : Value) :
    ∃ chars : Line, (world.alertAge index alert status).1 = chars.map .scalar := by
  rw [World.alertAge]
  simp only
  split
  · split
    · exact ⟨[], rfl⟩
    · exact ⟨_, rfl⟩
  · exact ⟨[], rfl⟩

theorem scalars_append {first rest : PyStr} {chars : Line}
    (whole : first ++ rest = chars.map .scalar) :
    (∃ own : Line, first = own.map .scalar) ∧ ∃ own : Line, rest = own.map .scalar := by
  rcases List.map_eq_append_iff.mp whole.symm with ⟨front, back, _, left, right⟩
  exact ⟨⟨front, left.symm⟩, ⟨back, right.symm⟩⟩

theorem marked_scalars {mark : String} {text : PyStr} :
    (∃ chars : Line, Value.str (literal mark ++ text) = .str (chars.map .scalar)) ↔
      ∃ chars, scalars text = some chars := by
  constructor
  · intro whole
    rcases whole with ⟨chars, same⟩
    rcases (scalars_append (Value.str.inj same)).2 with ⟨own, rest⟩
    exact ⟨own, scalars_eq_some.mpr rest⟩
  · intro rest
    rcases rest with ⟨own, spelled⟩
    refine ⟨mark.toList ++ own, ?_⟩
    rw [scalars_eq_some.mp spelled, literal, List.map_append]

/-- The title is a text that can be sent if and only if there is a summary, or a mark before
it, and no half of a pair in it. -/
theorem message_title (index : Nat) (alert : Alert) (body : PyStr) :
    (∃ chars : Line,
      (world.message index alert groupStatus body).title = .str (chars.map .scalar)) ↔
    (alert.summary ≠ .null ∨ (alert.status.getD groupStatus).is "resolved" = true ∨
      (world.alertAge index alert (alert.status.getD groupStatus)).2 = true) ∧
      ∃ chars, scalars (formatted alert.summary) = some chars := by
  rw [World.message]
  split
  · next resolved =>
      rw [marked_scalars]
      exact ⟨fun spelled => ⟨.inr (.inl resolved), spelled⟩, And.right⟩
  · next firing =>
      simp only
      split
      · next ongoing =>
          rw [marked_scalars]
          exact ⟨fun spelled => ⟨.inr (.inr ongoing), spelled⟩, And.right⟩
      · next fresh =>
          cases summary : alert.summary with
          | null => simp [firing, fresh]
          | str text => simp [formatted, scalars_eq_some]

/-! ## One alert -/

/-- The state after an alert: counted, sent, and written down or printed. -/
def State.noted (state : State) (report : Report) (opens : Bool) : State where
  sendFailures := state.sendFailures + if report.sent.failed then 1 else 0
  alertsTotal := state.alertsTotal + 1
  log := if opens then state.log ++ (report.line ++ ['\n']) else state.log
  fallback :=
    if opens then state.fallback else state.fallback ++ [(report.line ++ ['\n']).map .scalar]
  sent := state.sent ++ [(report.request, report.sent)]

/-- The line of plain fields is written as it is. -/
theorem audit_plain (world : World) (index : Nat) {word : String} {message : Message} {code : Nat}
    {fields : List (String × Option Line)}
    (same : message.fields code = fields.map fun field => (field.1, spell field.2))
    (state : State) :
    world.audit index word (message.fields code) state =
      (.ok (), { state with
        log := if world.opens index then
            state.log ++ (reported (world.clock index) word (named fields) ++ ['\n'])
          else state.log
        fallback := if world.opens index then state.fallback
          else state.fallback ++
            [(reported (world.clock index) word (named fields) ++ ['\n']).map .scalar] }) := by
  rw [World.audit, same, auditLine_spell]
  split
  · rw [scalars_map]
  · rfl

theorem handleAlert_fit {entry : Alert × Nat} (fit : Fit world groupStatus entry) (state : State) :
    ∃ report, Told world groupStatus entry report ∧
      world.handleAlert entry.2 entry.1 groupStatus state =
        (.ok (accepted report.sent.code), state.noted report (world.opens entry.2)) := by
  rcases entry with ⟨alert, index⟩
  rcases fit.described with ⟨description, described⟩
  rcases alertAge_scalars world index alert (alert.status.getD groupStatus) with ⟨age, aged⟩
  -- The message, and its title and body as texts that can be sent.
  have composed : world.compose index alert groupStatus =
      .ok (world.message index alert groupStatus ((age ++ description).map .scalar)) := by
    rw [compose_readable fit.labelled fit.annotated, described, aged, extend, Except.map,
      List.map_append]
  have bodied : (world.message index alert groupStatus ((age ++ description).map .scalar)).body =
      (age ++ description).map .scalar := message_body index alert _
  have noted : ∀ code : Nat,
      (world.message index alert groupStatus ((age ++ description).map .scalar)).fields code = _ :=
    message_fields index alert _
  rcases (message_title index alert ((age ++ description).map .scalar)).mpr
    ⟨fit.titled, fit.spelled⟩ with ⟨title, titled⟩
  generalize world.message index alert groupStatus ((age ++ description).map .scalar) = message
    at composed bodied noted titled
  rcases sendNtfy_scalars (world.answers index) title (age ++ description) message.priority
    message.tags with ⟨request, sent⟩
  generalize ended : attempts (fun number => urlopen request (world.answers index number)) 0
    delays = outcome at sent
  -- The line of the log.
  rcases fit.plain (alert.status.getD groupStatus) (by simp) with ⟨status, isStatus, plainStatus⟩
  rcases fit.plain alert.alertname (by simp) with ⟨alertname, isName, plainName⟩
  rcases fit.plain alert.severity (by simp) with ⟨severity, isSeverity, plainSeverity⟩
  rcases fit.plain alert.service (by simp) with ⟨service, isService, plainService⟩
  have fields : message.fields outcome.code =
      (lineFields alertname severity service status outcome.code).map
        fun field => (field.1, spell field.2) := by
    rw [noted, isStatus, isName, isSeverity, isService]
    rfl
  have clear : Clear (named (lineFields alertname severity service status outcome.code)) := by
    apply clear_lineFields
    intro own member
    simp only [List.mem_cons, List.not_mem_nil, or_false] at member
    rcases member with rfl | rfl | rfl | rfl
    · exact plainName
    · exact plainSeverity
    · exact plainService
    · exact plainStatus
  have word : (if accepted outcome.code then "ok" else "fail") = "ok" ∨
      (if accepted outcome.code then "ok" else "fail") = "fail" := by
    split
    · exact .inl rfl
    · exact .inr rfl
  generalize words : (if accepted outcome.code then "ok" else "fail") = known at word
  refine ⟨⟨request, outcome, reported (world.clock index) known
    (named (lineFields alertname severity service status outcome.code))⟩, ?_, ?_⟩
  · exact {
      composed := ⟨message, composed, by rw [titled, bodied]; exact sent⟩
      tried := by
        rw [← ended]
        exact attempts_tried _
      heard := by
        rw [← ended]
        exact attempts_heard _
      single := single_reported (world.clock_plain index) word clear
      states := by
        rw [record_reported (world.clock_plain index) word clear, Alert.record, isStatus, isName,
          isSeverity, isService] }
  · rw [World.handleAlert, composed]
    simp only
    rw [titled, bodied, sent]
    simp only
    rw [words, audit_plain world index fields]
    rfl

/-- Whatever has a true report is fit for it. -/
theorem Told.fit {entry : Alert × Nat} {report : Report}
    (told : Told world groupStatus entry report) : Fit world groupStatus entry := by
  rcases entry with ⟨alert, index⟩
  rcases told.composed with ⟨message, composed, sent⟩
  have labelled : Readable alert.labels := by
    cases read : fieldsOf alert.labels with
    | ok fields => exact readable_of_ok read
    | error raised =>
        simp only [World.compose, read, bind, Except.bind] at composed
        cases composed
  have annotated : Readable alert.annotations := by
    cases read : fieldsOf alert.annotations with
    | ok fields => exact readable_of_ok read
    | error raised =>
        simp only [World.compose, fieldsOf_look labelled, read, bind, Except.bind] at composed
        cases composed
  rw [compose_readable labelled annotated] at composed
  rcases sendNtfy_ok sent with ⟨whole, titled⟩
  cases described : alert.description with
  | null =>
      rw [described] at composed
      cases composed
  | str text =>
      rw [described] at composed
      cases composed
      rw [message_body] at whole
      rcases whole with ⟨chars, whole⟩
      rcases (scalars_append whole).2 with ⟨own, spelled⟩
      have title := (message_title index alert _).mp titled
      have plain : ∀ value ∈ [(alert.record groupStatus report.sent.code).status,
          (alert.record groupStatus report.sent.code).alertname,
          (alert.record groupStatus report.sent.code).severity,
          (alert.record groupStatus report.sent.code).service], value.Plain := by
        rw [← told.states]
        intro value member
        simp only [List.mem_cons, List.not_mem_nil, or_false] at member
        rcases member with same | same | same | same
        all_goals
          rw [same]
          exact plain_read told.single
      exact {
        labelled := labelled
        annotated := annotated
        described := ⟨own, by rw [described, spelled]⟩
        titled := title.1
        spelled := title.2
        plain := plain }

/-! ## A request -/

/-- What the alerts from one on come to, when all are fit: the reports, the state after them,
and what was added to the log. -/
structure Ran (world : World) (groupStatus : Value) (index : Nat) (alerts : List Alert)
    (state : State) (reports : List Report) (after : State) (written : Line) : Prop where
  told : List.Forall₂ (Told world groupStatus) (alerts.zipIdx index) reports
  result : world.processAlerts groupStatus index alerts state =
    (.ok (reports.all fun report => accepted report.sent.code), after)
  counted : after.alertsTotal = state.alertsTotal + alerts.length
  sent : after.sent = state.sent ++ reports.map fun report => (report.request, report.sent)
  log : after.log = state.log ++ written
  breaks : written.count '\n' =
    ((alerts.zipIdx index).filter fun entry => world.opens entry.2).length
  lines : (∀ entry ∈ alerts.zipIdx index, world.opens entry.2 = true) →
    written = joined (reports.map Report.line)

theorem count_line {line : Line} (single : '\n' ∉ line) : (line ++ ['\n']).count '\n' = 1 := by
  rw [List.count_append, List.count_eq_zero.mpr single]
  rfl

theorem processAlerts_fit (index : Nat) {alerts : List Alert}
    (fit : ∀ entry ∈ alerts.zipIdx index, Fit world groupStatus entry) (state : State) :
    ∃ reports after written, Ran world groupStatus index alerts state reports after written := by
  induction alerts generalizing index state with
  | nil => exact ⟨[], state, [], .nil, rfl, rfl, by simp, by simp, rfl, fun _ => rfl⟩
  | cons alert rest induction =>
      rw [List.zipIdx_cons] at fit
      rcases handleAlert_fit (fit (alert, index) List.mem_cons_self) state with
        ⟨report, told, handled⟩
      rcases induction (index + 1) (fun entry member => fit entry (List.mem_cons_of_mem _ member))
        (state.noted report (world.opens index)) with ⟨reports, after, written, ran⟩
      refine ⟨report :: reports, after,
        (if world.opens index then report.line ++ ['\n'] else []) ++ written, ?_⟩
      exact {
        told := by
          rw [List.zipIdx_cons]
          exact .cons told ran.told
        result := by
          rw [World.processAlerts, handled]
          simp only
          rw [ran.result, List.all_cons]
        counted := by
          rw [ran.counted, State.noted, List.length_cons]
          simp only
          omega
        sent := by
          rw [ran.sent, State.noted, List.map_cons, List.append_assoc, List.singleton_append]
        log := by
          rw [ran.log, State.noted]
          simp only
          split
          · simp
          · simp
        breaks := by
          rw [List.count_append, ran.breaks, List.zipIdx_cons, List.filter_cons]
          simp only
          split
          · rw [count_line told.single, List.length_cons]
            omega
          · simp
        lines := by
          intro opens
          rw [List.zipIdx_cons] at opens
          have here : world.opens index = true := opens (alert, index) List.mem_cons_self
          rw [if_pos here,
            ran.lines fun entry member => opens entry (List.mem_cons_of_mem _ member)]
          rfl }

theorem count_joined {lines : List Line} (single : ∀ line ∈ lines, '\n' ∉ line) :
    (joined lines).count '\n' = lines.length := by
  induction lines with
  | nil => rfl
  | cons line rest induction =>
      have later := induction fun other member => single other (List.mem_cons_of_mem _ member)
      rw [joined] at later ⊢
      rw [List.flatMap_cons, List.count_append, later,
        count_line (single line List.mem_cons_self), List.length_cons]
      omega

/-- The answer to the request, after a run in which nothing raises. -/
theorem Ran.answered {payload : Payload} {state after : State} {reports : List Report}
    {written : Line} (ran : Ran world (payload.status.getD (.str (literal "firing"))) 0
      (payload.alerts.getD []) state reports after written) :
    world.doPost (.payload payload) state =
      ([if ∀ report ∈ reports, accepted report.sent.code then 204 else 500], after) := by
  have processed : world.processPayload payload state = (.ok _, after) := ran.result
  rw [World.doPost, processed]
  by_cases all : ∀ report ∈ reports, accepted report.sent.code
  · rw [List.all_eq_true.mpr all, if_pos all]
  · rw [if_neg all]
    rw [← List.all_eq_true, Bool.not_eq_true] at all
    rw [all]

theorem told_each {entries : List (Alert × Nat)} {reports : List Report}
    (told : List.Forall₂ (Told world groupStatus) entries reports) :
    (∀ entry ∈ entries, ∃ report, Told world groupStatus entry report) ∧
      ∀ report ∈ reports, ∃ entry, Told world groupStatus entry report := by
  induction told with
  | nil => simp
  | cons own later induction =>
      constructor
      · intro entry member
        rcases List.mem_cons.mp member with same | member
        · exact ⟨_, same ▸ own⟩
        · exact induction.1 entry member
      · intro report member
        rcases List.mem_cons.mp member with same | member
        · exact ⟨_, same ▸ own⟩
        · exact induction.2 report member

/-- Alertmanager is told the truth exactly where every alert is fit and the audit log can be
opened for it. -/
theorem audit_truthful_iff (world : World) (payload : Payload) (state : State) :
    Truthful world payload state ↔
      ∀ entry ∈ (payload.alerts.getD []).zipIdx,
        Fit world (payload.status.getD (.str (literal "firing"))) entry ∧
          world.opens entry.2 = true := by
  constructor
  · intro truthful
    rcases truthful with ⟨reports, after, told, answered, _, _, log⟩
    have fit : ∀ entry ∈ (payload.alerts.getD []).zipIdx,
        Fit world (payload.status.getD (.str (literal "firing"))) entry := by
      intro entry member
      rcases (told_each told).1 entry member with ⟨report, own⟩
      exact own.fit
    -- The log has as many lines as there are alerts, and only what can be opened adds one.
    rcases processAlerts_fit 0 fit state with ⟨others, last, written, ran⟩
    have same := ran.answered.symm.trans answered
    have states : last = after := (Prod.mk.inj same).2
    have lines : written = joined (reports.map Report.line) := by
      rw [← states, ran.log] at log
      exact List.append_cancel_left log
    have breaks := ran.breaks
    rw [lines, count_joined, List.length_map, ← told.length_eq] at breaks
    · have opens := List.length_filter_eq_length_iff.mp breaks.symm
      exact fun entry member => ⟨fit entry member, opens entry member⟩
    · intro line member
      rcases List.mem_map.mp member with ⟨report, inside, same⟩
      rcases (told_each told).2 report inside with ⟨entry, own⟩
      rw [← same]
      exact own.single
  · intro sound
    rcases processAlerts_fit 0 (fun entry member => (sound entry member).1) state with
      ⟨reports, after, written, ran⟩
    refine ⟨reports, after, ran.told, ran.answered, ran.counted, ran.sent, ?_⟩
    rw [ran.log, ran.lines fun entry member => (sound entry member).2]

/-! ## What is not told -/

/-- Everything is accepted at once, and the log can be written. -/
def steady : World where
  answers _ _ := .status 200
  now _ := ⟨true, 0, 2026⟩
  clock _ := "2026-08-02T00:00:00Z".toList
  opens _ := true
  fromisoformat _ := none
  clock_plain := by
    intro alert
    decide

/-- An alert with one label, one annotation and nothing else. -/
def plainAlert (label annotation : String × Value) : Alert :=
  ⟨none, some (.object fun name => if name = label.1 then some label.2 else none),
    some (.object fun name => if name = annotation.1 then some annotation.2 else none), none, none⟩

def State.fresh : State := ⟨0, 0, [], [], []⟩

theorem not_plain_blank {value : Value} {chars : Line} (same : value = .str (chars.map .scalar))
    (blank : ' ' ∈ chars) : ¬value.Plain := by
  intro plain
  rcases plain with ⟨own, isValue, clear⟩
  rw [same] at isValue
  cases own with
  | none => cases isValue
  | some others =>
      have equal := List.map_injective_iff.mpr scalar_injective (Value.str.inj isValue)
      rw [equal] at blank
      exact (clear others rfl).1 blank

/-- An empty description takes the answer, the line and the next alert with it, though all
would have been accepted. A blank in a name is in the log, and ends the name there. -/
theorem truthful_fails :
    (steady.doPost (.payload ⟨none, some [
        plainAlert ("alertname", .str (literal "Disk")) ("description", .null),
        plainAlert ("alertname", .str (literal "Net")) ("summary", .str (literal "down"))]⟩)
      .fresh).1 = [] ∧
    (steady.doPost (.payload ⟨none, some [
        plainAlert ("alertname", .str (literal "Disk")) ("description", .null),
        plainAlert ("alertname", .str (literal "Net")) ("summary", .str (literal "down"))]⟩)
      .fresh).2.alertsTotal = 1 ∧
    ¬Truthful steady ⟨none, some [
        plainAlert ("alertname", .str (literal "Disk")) ("description", .null),
        plainAlert ("alertname", .str (literal "Net")) ("summary", .str (literal "down"))]⟩ .fresh ∧
    ¬Truthful steady ⟨none, some [
        plainAlert ("alertname", .str (literal "Disk full")) ("summary", .str (literal "full"))]⟩
      .fresh := by
  refine ⟨by decide, by decide, fun truthful => ?_, fun truthful => ?_⟩
  · rcases truthful with ⟨reports, after, _, answered, _⟩
    have none_answered := congrArg Prod.fst answered
    have silent : (steady.doPost (.payload ⟨none, some [
        plainAlert ("alertname", .str (literal "Disk")) ("description", .null),
        plainAlert ("alertname", .str (literal "Net")) ("summary", .str (literal "down"))]⟩)
      .fresh).1 = [] := by decide
    rw [silent] at none_answered
    cases none_answered
  · rcases truthful with ⟨reports, after, told, _⟩
    rcases (told_each told).1 _ (List.mem_cons_self) with ⟨report, own⟩
    have plain := own.fit.plain (.str (literal "Disk full")) (by decide)
    exact not_plain_blank rfl (by decide) plain

end Homelab.NtfyBridge
