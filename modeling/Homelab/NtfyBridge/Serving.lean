import Homelab.Foundation.Exposition
import Homelab.NtfyBridge.Locking

/-! # What the threads come to

The counters are what the requests would have counted one by one, however their threads are
interleaved, and a scrape in between shows no more failures than alerts.
-/

namespace Homelab.NtfyBridge

open Effects Text
open Autodeploy.Subcommand (literal)

variable {Process : Type} [DecidableEq Process] {calls : Process → Call}

abbrev saidBy (process : Process) (order : List (Turn statements State Process)) :
    List Statement := asked (momentsOf process order)

section Statements

variable {programs left : Process → Thread (List Reply)} {start state : State}
  {order : List (Turn statements State Process)} {process : Process} {call : Call}
  {rest : Thread (List Reply)} {moments : List (Moment statements State)}

theorem state_applied (interleaves : Interleaves atomic programs start order left state) :
    state = applied start (asked (order.map Turn.moment)) := by
  induction interleaves with
  | start => rfl
  | next earlier process waits step induction =>
      rw [atomic_on step, induction, asked, asked, List.map_append, List.map_append,
        applied_append]
      rfl

theorem countP_asked (moments : List (Moment statements State)) (counter : Counter) :
    (asked moments).countP (Statement.counts counter) =
      moments.countP fun moment => moment.operation.counts counter :=
  List.countP_map

theorem getting_reads (path : String) :
    (getting path).Within (fun statement : Statement => ∀ counter, statement.counts counter = false)
      fun _ => True := by
  by_cases metrics : path = "/metrics"
  · rw [getting, if_pos metrics]
    exact ⟨fun _ => rfl, fun _ => ⟨fun _ => rfl, fun _ => trivial⟩⟩
  · rw [getting, if_neg metrics]
    split
    · trivial
    · trivial

theorem got_nothing {path : String} (follows : Follows (getting path) moments rest)
    (counter : Counter) : (asked moments).countP (Statement.counts counter) = 0 := by
  refine List.countP_eq_zero.mpr fun statement member => ?_
  rw [((getting_reads path).follows follows).1 statement member counter]
  exact Bool.false_ne_true

/-- No thread counts a failure before the alert. -/
theorem failures_le_own (follows : Follows call.thread moments rest) :
    (asked moments).countP (Statement.counts .sendFailures) ≤
      (asked moments).countP (Statement.counts .alertsTotal) := by
  cases call with
  | get path =>
      rw [got_nothing follows]
      exact Nat.zero_le _
  | post world body =>
      rcases posting_behaves world body with ⟨said, result, oblivious, covered, _⟩
      rcases oblivious.follows follows with ⟨more, split, _⟩
      have own := covered (asked moments) ⟨more, split.symm⟩
      rwa [Nat.zero_add] at own

/-- A `POST` that is answered is answered as if it were alone. -/
theorem posted {world : World} {body : Body} {replies : List Reply}
    (follows : Follows (world.posting body) moments (.done replies)) (state : State) :
    replies = (world.doPost body state).1.map Reply.bare ∧
      (world.doPost body state).2 = applied state (asked moments) := by
  rcases posting_behaves world body with ⟨said, result, oblivious, _, agree⟩
  rcases oblivious.follows follows with ⟨more, split, ends, same⟩
  rw [ends, List.append_nil] at split
  have both := Prod.mk.inj (agree state)
  rw [both.1, both.2, split]
  exact ⟨same, rfl⟩

theorem value_fresh (counter : Counter) : State.fresh.value counter = 0 := by
  cases counter <;> rfl

/-- What a request has counted when it is answered. -/
theorem counted_alone {replies : List Reply}
    (follows : Follows call.thread moments (.done replies)) (counter : Counter) :
    (asked moments).countP (Statement.counts counter) = call.alone.value counter := by
  cases call with
  | get path => rw [got_nothing follows, Call.alone, value_fresh]
  | post world body =>
      rw [Call.alone, (posted follows .fresh).2, value_applied, value_fresh, Nat.zero_add]

/-- The counters, counted for each thread. -/
theorem value_sum (interleaves : Interleaves atomic programs .fresh order left state)
    {processes : List Process} (distinct : processes.Nodup)
    (all : ∀ turn ∈ order, turn.process ∈ processes) (counter : Counter) :
    state.value counter = (processes.map fun process =>
      (saidBy process order).countP (Statement.counts counter)).sum := by
  rw [state_applied interleaves, value_applied, value_fresh, Nat.zero_add, countP_asked,
    count_momentsOf _ distinct all]
  simp only [saidBy, countP_asked]

theorem failures_le
    (interleaves : Interleaves atomic (fun process => (calls process).thread) .fresh order left
      state) : state.sendFailures ≤ state.alertsTotal := by
  have all : ∀ turn ∈ order, turn.process ∈ (order.map Turn.process).dedup := fun turn member =>
    List.mem_dedup.mpr (List.mem_map_of_mem member)
  have sums := value_sum interleaves (List.nodup_dedup _) all
  calc
    state.sendFailures = state.value .sendFailures := rfl
    _ ≤ state.value .alertsTotal := by
      rw [sums, sums]
      exact List.sum_le_sum fun process _ => failures_le_own (interleaves.follows process)
    _ = state.alertsTotal := rfl

end Statements

section Serving

variable {rest : Process → Program instructions (List Reply)} {shared : Shared}
  {turns : List (Turn instructions Shared Process)}

def Shared.fresh : Shared := ⟨.fresh, false⟩

theorem serialized
    (interleaves : Interleaves machine (fun process => (calls process).program) .fresh turns rest
      shared) :
    ∃ holds order left, Interleaves atomic (fun process => (calls process).thread) .fresh order
        left shared.state ∧
      Abreast Stage Apart holds left rest shared ∧
      ∀ turn ∈ order, ∃ cause ∈ turns, cause.process = turn.process := by
  have initially : Abreast Stage Apart (fun _ : Process => false)
      (fun process => (calls process).thread) (fun process => (calls process).program)
      Shared.fresh := ⟨fun _ => .free rfl, fun _ _ _ => .inl rfl⟩
  exact interleaves.refines initially fun _ _ _ _ _ _ _ stage step => advance stage step

/-- However the threads are interleaved, they might have taken turns with whole statements. A
request is answered as if it were alone. No increment is lost: when every thread is through, the
counters are what the requests would have counted each on its own. -/
theorem served_together
    (interleaves : Interleaves machine (fun process => (calls process).program) .fresh turns rest
      shared) :
    ∃ order left, Interleaves atomic (fun process => (calls process).thread) .fresh order left
        shared.state ∧
      (∀ process world body replies, calls process = .post world body →
        rest process = .done replies →
        replies = (world.doPost body .fresh).1.map Reply.bare ∧
          (world.doPost body .fresh).2 = applied .fresh (saidBy process order)) ∧
      ∀ processes : List Process, processes.Nodup →
        (∀ turn ∈ turns, turn.process ∈ processes) →
        (∀ process ∈ processes, ∃ replies, rest process = .done replies) →
        ∀ counter, shared.state.value counter =
          (processes.map fun process => (calls process).alone.value counter).sum := by
  rcases serialized interleaves with ⟨holds, order, left, lifted, abreast, caused⟩
  have ended {process replies} (through : rest process = .done replies) :
      Follows (calls process).thread (momentsOf process order) (.done replies) := by
    have own := abreast.stages process
    rw [through] at own
    rw [← own.done]
    exact lifted.follows process
  refine ⟨order, left, lifted, fun process world body replies call through => ?_,
    fun processes distinct all through counter => ?_⟩
  · have follows := ended through
    rw [call] at follows
    exact posted follows .fresh
  · have taken : ∀ turn ∈ order, turn.process ∈ processes := by
      intro turn member
      rcases caused turn member with ⟨cause, there, same⟩
      rw [← same]
      exact all cause there
    rw [value_sum lifted distinct taken]
    refine congrArg List.sum (List.map_congr_left fun process member => ?_)
    rcases through process member with ⟨replies, done⟩
    exact counted_alone (ended done) counter

end Serving

/-! ## Scrapes -/

section Scrapes

open Exposition (Family print)

def families (sendFailures alertsTotal : Nat) : List Family :=
  [⟨"ntfy_bridge_send_failures_total", "ntfy POSTs that exhausted every retry.", .counter,
      [([], sendFailures)]⟩,
    ⟨"ntfy_bridge_alerts_total", "Alerts processed by the bridge.", .counter,
      [([], alertsTotal)]⟩]

theorem counterText_eq (name help : String) (value : Nat) :
    counterText name help value = print (Family.entries ⟨name, help, .counter, [([], value)]⟩) :=
  Exposition.three_lines _ _ _ _ _ _

theorem families_plain (sendFailures alertsTotal : Nat) :
    ∀ family ∈ families sendFailures alertsTotal, family.Plain := by
  simp only [families, List.forall_mem_cons]
  refine ⟨⟨Exposition.named_literal rfl (by decide), Exposition.clear_literal rfl (by decide), ?_⟩,
    ⟨Exposition.named_literal rfl (by decide), Exposition.clear_literal rfl (by decide), ?_⟩,
    List.forall_mem_nil _⟩
  · simp
  · simp

/-- What is rendered reads as exactly the two counters. -/
theorem parse_renderMetrics (sendFailures alertsTotal : Nat) :
    Exposition.parse (renderMetrics sendFailures alertsTotal) =
      some ((families sendFailures alertsTotal).flatMap Family.entries) := by
  have text : renderMetrics sendFailures alertsTotal =
      print ((families sendFailures alertsTotal).flatMap Family.entries) := by
    rw [renderMetrics, counterText_eq, counterText_eq, ← Exposition.print_both, families,
      List.flatMap_cons, List.flatMap_singleton]
  rw [text]
  exact Exposition.parse_families (families_plain sendFailures alertsTotal)

/-- Where a scrape is: the first counter it read was no more than the second is by then. -/
inductive Scraping (before : State) : Thread (List Reply) → State → Prop
  | waiting {state} : Scraping before (getting "/metrics") state
  | halfway {state failures} (least : before.sendFailures ≤ failures)
      (most : failures ≤ state.sendFailures) (below : failures ≤ state.alertsTotal) :
      Scraping before (.call (.read .alertsTotal) fun (total : Nat) =>
        .done [metricsReply failures total]) state
  | answered {state failures total} (below : failures ≤ total)
      (least : before.sendFailures ≤ failures) (most : failures ≤ state.sendFailures)
      (least' : before.alertsTotal ≤ total) (most' : total ≤ state.alertsTotal) :
      Scraping before (.done [metricsReply failures total]) state

/-- No statement takes a count back. -/
theorem on_grows {state after : State} {statement : Statement} {answer : statement.Answer}
    (step : atomic.Step state statement answer after) (counter : Counter) :
    state.value counter ≤ after.value counter := by
  rw [atomic_on step, value_on]
  exact Nat.le_add_right _ _

variable {before state after : State} {thread : Thread (List Reply)}

theorem Scraping.grow (scraping : Scraping before thread state)
    (grows : ∀ counter, state.value counter ≤ after.value counter) :
    Scraping before thread after := by
  have failures : state.sendFailures ≤ after.sendFailures := grows .sendFailures
  have total : state.alertsTotal ≤ after.alertsTotal := grows .alertsTotal
  cases scraping with
  | waiting => exact .waiting
  | halfway least most below => exact .halfway least (most.trans failures) (below.trans total)
  | answered below least most least' most' =>
      exact .answered below least (most.trans failures) least' (most'.trans total)

theorem getting_metrics : getting "/metrics" = .call (.read .sendFailures) fun (failures : Nat) =>
    .call (.read .alertsTotal) fun (total : Nat) => .done [metricsReply failures total] := rfl

theorem Scraping.own {statement : Statement} {next : statement.Answer → Thread (List Reply)}
    {answer : statement.Answer} (scraping : Scraping before (.call statement next) state)
    (covered : state.sendFailures ≤ state.alertsTotal)
    (grown : ∀ counter, before.value counter ≤ state.value counter)
    (step : atomic.Step state statement answer after) : Scraping before (next answer) after := by
  generalize left : (.call statement next : Thread (List Reply)) = thread at scraping
  cases scraping with
  | waiting =>
      rw [getting_metrics] at left
      cases left
      rcases step with ⟨rfl, rfl⟩
      exact .halfway (grown .sendFailures) (Nat.le_refl _) covered
  | halfway least most below =>
      cases left
      rcases step with ⟨rfl, rfl⟩
      exact .answered below least most (grown .alertsTotal) (Nat.le_refl _)
  | answered => cases left

variable {left middle rest : Process → Thread (List Reply)}
  {order more : List (Turn statements State Process)}

theorem grown (interleaves : Interleaves atomic middle before more rest after)
    (counter : Counter) : before.value counter ≤ after.value counter := by
  rw [state_applied interleaves, value_applied]
  exact Nat.le_add_right _ _

theorem scraping {process : Process}
    (first : Interleaves atomic (fun process => (calls process).thread) .fresh order middle before)
    (second : Interleaves atomic middle before more rest after)
    (starts : middle process = getting "/metrics") : Scraping before (rest process) after := by
  induction second with
  | start =>
      rw [starts]
      exact .waiting
  | @next turns rest state earlier actor statement next waits answer after step induction =>
      by_cases same : actor = process
      · subst same
        rw [waits] at induction
        rw [Function.update_self]
        exact induction.own (failures_le (first.trans earlier)) (grown earlier) step
      · rw [Function.update_of_ne (Ne.symm same)]
        exact induction.grow (on_grows step)

/-- A scrape shows each counter with a value between those it had when the scrape began and when
it ended, never more failures than alerts, and nothing else. -/
theorem scraped_between {idle left : Process → Program instructions (List Reply)}
    {opening closing : Shared} {earlier later : List (Turn instructions Shared Process)}
    {process : Process} {answers : List Reply}
    (first : Interleaves machine (fun process => (calls process).program) .fresh earlier idle
      opening)
    (second : Interleaves machine idle opening later left closing)
    (call : calls process = .get "/metrics") (unseen : ∀ turn ∈ earlier, turn.process ≠ process)
    (answered : left process = .done answers) :
    ∃ failures total, answers = [metricsReply failures total] ∧ failures ≤ total ∧
      opening.state.sendFailures ≤ failures ∧ failures ≤ closing.state.sendFailures ∧
      opening.state.alertsTotal ≤ total ∧ total ≤ closing.state.alertsTotal ∧
      Exposition.parse (renderMetrics failures total) =
        some ((families failures total).flatMap Family.entries) := by
  rcases serialized first with ⟨holds, order, middle, lifted, abreast, caused⟩
  obtain ⟨holds', more, rest, lifted', abreast', _⟩ :=
    second.refines abreast fun _ _ _ _ _ _ _ stage step => advance stage step
  have nothing : momentsOf process order = [] := by
    rw [momentsOf, List.map_eq_nil_iff, List.filter_eq_nil_iff]
    intro turn member same
    rcases caused turn member with ⟨cause, there, equal⟩
    exact unseen cause there (equal.trans (of_decide_eq_true same))
  have starts : middle process = getting "/metrics" := by
    have follows := lifted.follows process
    rw [nothing, call] at follows
    exact follows.nothing
  have ends := scraping lifted lifted' starts
  have own := abreast'.stages process
  rw [answered] at own
  generalize through : rest process = thread at ends
  rw [own.done] at through
  cases ends with
  | waiting => cases through
  | halfway => cases through
  | answered below least most least' most' =>
      cases through
      exact ⟨_, _, rfl, below, least, most, least', most', parse_renderMetrics _ _⟩

end Scrapes

/-! ## A scrape in the middle of an increment -/

theorem leave_executes (state : State) :
    ∃ moments, Executes machine leave ⟨state, true⟩ moments ⟨state, false⟩ (some ()) :=
  ⟨[⟨⟨state, true⟩, .release, (), ⟨state, false⟩⟩], .call ⟨rfl, rfl⟩ (.done () _)⟩

theorem store_executes (counter : Counter) (value : Nat) (state : State) :
    ∃ moments, Executes machine (store counter value) ⟨state, true⟩ moments
      ⟨state.put value counter, false⟩ (some ()) := by
  rcases leave_executes (state.put value counter) with ⟨moments, left⟩
  exact ⟨⟨⟨state, true⟩, .store counter value, (), ⟨state.put value counter, true⟩⟩ :: moments,
    .call rfl left⟩

theorem bump_executes (counter : Counter) (state : State) :
    ∃ moments, Executes machine (bump counter) ⟨state, true⟩ moments
      ⟨state.put (state.value counter + 1) counter, false⟩ (some ()) := by
  rcases store_executes counter (state.value counter + 1) state with ⟨moments, stored⟩
  exact ⟨⟨⟨state, true⟩, .load counter, state.value counter, ⟨state, true⟩⟩ :: moments,
    .call ⟨rfl, rfl⟩ stored⟩

/-- Left alone, a thread comes to its end. -/
theorem runs (thread : Thread (List Reply)) (state : State) :
    ∃ moments final answers, Executes machine (thread.interpret compile) ⟨state, false⟩ moments
      ⟨final, false⟩ (some answers) := by
  induction thread generalizing state with
  | done answers => exact ⟨[], state, answers, .done _ _⟩
  | call statement next induction =>
      cases statement with
      | count counter =>
          rcases bump_executes counter state with ⟨first, bumped⟩
          obtain ⟨moments, final, answers, later⟩ :=
            induction () (state.put (state.value counter + 1) counter)
          exact ⟨⟨⟨state, false⟩, .acquire, (), ⟨state, true⟩⟩ :: (first ++ moments), final,
            answers, .call ⟨rfl, rfl⟩ (bumped.bind later)⟩
      | read counter =>
          rcases induction (state.value counter) state with ⟨moments, final, answers, later⟩
          exact ⟨⟨⟨state, false⟩, .load counter, state.value counter, ⟨state, false⟩⟩ :: moments,
            final, answers, .call ⟨rfl, rfl⟩ later⟩
      | note own =>
          rcases induction () (own.on state) with ⟨moments, final, answers, later⟩
          exact ⟨⟨⟨state, false⟩, .note own, (), ⟨own.on state, false⟩⟩ :: moments, final, answers,
            .call rfl later⟩

/-- A thread that nobody keeps waiting comes to its end, wherever it is. -/
theorem Stage.finishes {holds : Bool} {thread : Thread (List Reply)}
    {left : Program instructions (List Reply)} {shared : Shared}
    (stage : Stage holds thread left shared) (unlocked : holds = false → shared.locked = false) :
    ∃ moments final answers, Executes machine left shared moments ⟨final, false⟩
      (some answers) := by
  rcases shared with ⟨state, locked_⟩
  cases stage with
  | free instructs =>
      have free : locked_ = false := unlocked rfl
      subst free instructs
      exact runs thread state
  | @entered counter next _ _ locked instructs =>
      have taken : locked_ = true := locked
      subst taken instructs
      rcases bump_executes counter state with ⟨first, bumped⟩
      obtain ⟨moments, final, answers, later⟩ :=
        runs (next ()) (state.put (state.value counter + 1) counter)
      exact ⟨_, final, answers, bumped.bind later⟩
  | @loaded counter next _ _ locked instructs =>
      have taken : locked_ = true := locked
      subst taken instructs
      rcases store_executes counter (state.value counter + 1) state with ⟨first, stored⟩
      obtain ⟨moments, final, answers, later⟩ :=
        runs (next ()) (state.put (state.value counter + 1) counter)
      exact ⟨_, final, answers, stored.bind later⟩
  | stored locked instructs =>
      have taken : locked_ = true := locked
      subst taken instructs
      rcases leave_executes state with ⟨first, released⟩
      rcases runs thread state with ⟨moments, final, answers, later⟩
      exact ⟨_, final, answers, released.bind later⟩

/-- One alert is posted, and the metrics are scraped. -/
def scene (scrapes : Bool) : Call :=
  if scrapes then .get "/metrics"
  else .post steady (.payload ⟨none, some [
    plainAlert ("alertname", .str (literal "Disk")) ("summary", .str (literal "full"))]⟩)

/-- The `POST` has loaded the counter and not stored it yet. -/
theorem scene_begins : ∃ turns rest, Interleaves machine (fun scrapes => (scene scrapes).program)
    .fresh turns rest ⟨.fresh, true⟩ ∧ (∀ turn ∈ turns, turn.process ≠ true) ∧
      rest true = (scene true).program ∧
        Stage true (scene false).thread (rest false) ⟨.fresh, true⟩ := by
  have acquired : machine.Step .fresh .acquire () ⟨.fresh, true⟩ := ⟨rfl, rfl⟩
  have loaded : machine.Step ⟨.fresh, true⟩ (.load .alertsTotal) (0 : Nat) ⟨.fresh, true⟩ :=
    ⟨rfl, rfl⟩
  have idle : Interleaves machine (fun scrapes => (scene scrapes).program) .fresh [] _ .fresh :=
    .start
  refine ⟨_, _, (idle.next false rfl acquired).next false rfl loaded, ?_, rfl, .loaded rfl rfl⟩
  simp

/-- In the meantime the metrics are scraped. -/
theorem scene_scrapes {rest : Bool → Program instructions (List Reply)}
    (starts : rest true = (scene true).program) :
    ∃ more left, Interleaves machine rest ⟨.fresh, true⟩ more left ⟨.fresh, true⟩ ∧
      left true = .done [metricsReply 0 0] ∧ left false = rest false := by
  have failures : machine.Step ⟨.fresh, true⟩ (.load .sendFailures) (0 : Nat) ⟨.fresh, true⟩ :=
    ⟨rfl, rfl⟩
  have total : machine.Step ⟨.fresh, true⟩ (.load .alertsTotal) (0 : Nat) ⟨.fresh, true⟩ :=
    ⟨rfl, rfl⟩
  have here : Interleaves machine rest ⟨.fresh, true⟩ [] rest ⟨.fresh, true⟩ := .start
  exact ⟨_, _, (here.next true starts failures).next true rfl total, rfl, rfl⟩

/-- The bounds on that scrape, and what its text parses as. -/
theorem scraped_between_scene : ∃ turns more left, ∃ opening closing : Shared,
    (∃ rest, Interleaves machine (fun scrapes => (scene scrapes).program) .fresh turns rest
        opening ∧
      Interleaves machine rest opening more left closing) ∧
    ∃ failures total, left true = .done [metricsReply failures total] ∧ failures ≤ total ∧
      opening.state.sendFailures ≤ failures ∧ failures ≤ closing.state.sendFailures ∧
      opening.state.alertsTotal ≤ total ∧ total ≤ closing.state.alertsTotal ∧
      Exposition.parse (renderMetrics failures total) =
        some ((families failures total).flatMap Exposition.Family.entries) := by
  rcases scene_begins with ⟨turns, rest, begun, unseen, starts, _⟩
  rcases scene_scrapes starts with ⟨more, left, scrapes, answered, _⟩
  rcases scraped_between begun scrapes rfl unseen answered with
    ⟨failures, total, same, bounds⟩
  exact ⟨turns, more, left, _, _, ⟨rest, begun, scrapes⟩, failures, total, same ▸ answered,
    bounds⟩

/-- The `POST` is answered with 204, and its alert is counted. -/
theorem served_together_scene : ∃ turns rest, ∃ shared : Shared,
    Interleaves machine (fun scrapes => (scene scrapes).program) .fresh turns rest shared ∧
      rest false = .done [.bare 204] ∧ shared.state.value .alertsTotal = 1 := by
  rcases scene_begins with ⟨turns, rest, begun, _, starts, stage⟩
  rcases scene_scrapes starts with ⟨more, left, scrapes, answered, same⟩
  rw [← same] at stage
  obtain ⟨moments, final, answers, execution⟩ :=
    stage.finishes fun impossible => by cases impossible
  have whole := (begun.trans scrapes).append false execution
  rcases served_together whole with ⟨order, _, _, posts, sums⟩
  have delivered : (steady.doPost (.payload ⟨none, some [
      plainAlert ("alertname", .str (literal "Disk")) ("summary", .str (literal "full"))]⟩)
      .fresh).1 = [204] := by decide +kernel
  have counted : (scene false).alone.value .alertsTotal = 1 := by decide +kernel
  refine ⟨_, _, _, whole, ?_, ?_⟩
  · rcases posts false _ _ answers rfl (Function.update_self _ _ _) with ⟨alone, _⟩
    rw [Function.update_self, alone, delivered]
    rfl
  · refine (sums [false, true] (by decide) (fun turn _ => ?_) (fun process _ => ?_)
      .alertsTotal).trans ?_
    · cases turn.process <;> decide
    · cases process with
      | false => exact ⟨answers, Function.update_self _ _ _⟩
      | true => exact ⟨_, answered⟩
    · rw [List.map_cons, counted]
      rfl

end Homelab.NtfyBridge
