import Homelab.Foundation.Exposition
import Homelab.Watchdog.LedgerText
import Homelab.Watchdog.Watch

/-! # What a scraper reads of the watchdog

`Metrics` prints the ledger for Prometheus. The text is written right after the ledger is, so a
scraper never sees a count that a crash could take back.
-/

namespace Homelab.Watchdog

open Effects Text GoJson
open Exposition (Kind Sample Entry print print_both print_flat three_lines)

/-! ## Printing -/

def flag (value : Bool) : Int := if value then 1 else 0

/-- The `write` closure. -/
def writeMetric (name : String) (kind : Kind) (help : String) (value : Int) : Line :=
  "# HELP ".toList ++ name.toList ++ ' ' :: help.toList ++ '\n' :: "# TYPE ".toList ++
    name.toList ++ ' ' :: kind.text ++ '\n' :: name.toList ++ ' ' :: decimal value ++ ['\n']

def writeHeader (metric : String) : Line :=
  "# HELP ".toList ++ metric.toList ++ ' ' :: "Current container watchdog observation.".toList ++
    '\n' :: "# TYPE ".toList ++ metric.toList ++ ' ' :: "gauge".toList ++ ['\n']

/-- A value of one container. Its name is valid, and `%q` only puts it in quotes. -/
def writeContainer (metric : String) (name : Name) (value : Int) : Line :=
  metric.toList ++ '\x7b' :: "container".toList ++ '=' :: '"' :: lineOf name ++
    '"' :: '\x7d' :: ' ' :: decimal value ++ ['\n']

def containerMetrics : List String :=
  ["watchdog_unhealthy", "watchdog_consecutive_unhealthy", "watchdog_restarts_24h",
    "watchdog_restart_failed", "watchdog_budget_exhausted"]

def Container.exhausted (c : Container) (budget : Int) : Bool :=
  c.unhealthy && decide (budget ≤ c.state.restarts)

def Container.metrics (c : Container) (budget : Int) (name : Name) : Line :=
  writeContainer "watchdog_unhealthy" name (flag c.unhealthy) ++
    writeContainer "watchdog_consecutive_unhealthy" name c.state.consecutive ++
    writeContainer "watchdog_restarts_24h" name c.state.restarts ++
    writeContainer "watchdog_restart_failed" name (flag c.restartFailed) ++
    writeContainer "watchdog_budget_exhausted" name (flag (c.exhausted budget))

def Result.metrics (r : Result) (budget : Int) : Line :=
  writeMetric "watchdog_last_run_timestamp_seconds" .gauge
      "Start timestamp of the last watchdog scan." r.lastRun ++
    writeMetric "watchdog_success" .gauge "Scan and state publication completed."
      (flag r.success) ++
    writeMetric "watchdog_docker_read_success" .gauge
      "Both Docker inventories were read and validated." (flag r.dockerReadOk) ++
    writeMetric "watchdog_restart_attempts_total" .counter
      "Restart intentions persisted before command execution." r.attempts.toNat ++
    writeMetric "watchdog_restarts_total" .counter
      "Successful Docker restart commands since Go cutover." r.restarts.toNat ++
    writeMetric "watchdog_restart_failures_total" .counter
      "Failed or timed out Docker restart commands since Go cutover." r.failures.toNat ++
    writeMetric "watchdog_notification_attempts_total" .counter
      "Notification helper invocations since Go cutover." r.notifications.toNat ++
    writeMetric "watchdog_notification_failures_total" .counter
      "Unsuccessful notification helper invocations since Go cutover."
      r.notificationFailures.toNat ++
    containerMetrics.flatMap writeHeader ++
    (sortNames r.containers.keys).flatMap fun name => (r.container name).metrics budget name

/-! ## What is meant -/

def Result.totals (r : Result) : List Sample :=
  [⟨"watchdog_last_run_timestamp_seconds".toList, [], r.lastRun⟩,
    ⟨"watchdog_success".toList, [], flag r.success⟩,
    ⟨"watchdog_docker_read_success".toList, [], flag r.dockerReadOk⟩,
    ⟨"watchdog_restart_attempts_total".toList, [], r.attempts.toNat⟩,
    ⟨"watchdog_restarts_total".toList, [], r.restarts.toNat⟩,
    ⟨"watchdog_restart_failures_total".toList, [], r.failures.toNat⟩,
    ⟨"watchdog_notification_attempts_total".toList, [], r.notifications.toNat⟩,
    ⟨"watchdog_notification_failures_total".toList, [], r.notificationFailures.toNat⟩]

def Container.observations (c : Container) (budget : Int) (name : Name) : List Sample :=
  [⟨"watchdog_unhealthy".toList, [("container".toList, lineOf name)], flag c.unhealthy⟩,
    ⟨"watchdog_consecutive_unhealthy".toList, [("container".toList, lineOf name)],
      c.state.consecutive⟩,
    ⟨"watchdog_restarts_24h".toList, [("container".toList, lineOf name)], c.state.restarts⟩,
    ⟨"watchdog_restart_failed".toList, [("container".toList, lineOf name)],
      flag c.restartFailed⟩,
    ⟨"watchdog_budget_exhausted".toList, [("container".toList, lineOf name)],
      flag (c.exhausted budget)⟩]

/-- A scraper reads the text, its samples are those of the ledger and its containers, and no
series has two values. -/
def Scraped (text : Line) (r : Result) (budget : Int) : Prop :=
  ∃ entries, Exposition.parse text = some entries ∧
    (∀ sample, .sample sample ∈ entries ↔ sample ∈ r.totals ∨
      ∃ name ∈ r.containers, sample ∈ (r.container name).observations budget name) ∧
    ∀ one other, .sample one ∈ entries → .sample other ∈ entries → one.series = other.series →
      one = other

/-! ## What is printed is read -/

def headed (name : String) (kind : Kind) (help : String) (value : Int) : List Entry :=
  [.help name.toList help.toList, .type name.toList kind, .sample ⟨name.toList, [], value⟩]

def headers (metric : String) : List Entry :=
  [.help metric.toList "Current container watchdog observation.".toList,
    .type metric.toList .gauge]

def Result.exposition (r : Result) (budget : Int) : List Entry :=
  headed "watchdog_last_run_timestamp_seconds" .gauge
      "Start timestamp of the last watchdog scan." r.lastRun ++
    headed "watchdog_success" .gauge "Scan and state publication completed."
      (flag r.success) ++
    headed "watchdog_docker_read_success" .gauge
      "Both Docker inventories were read and validated." (flag r.dockerReadOk) ++
    headed "watchdog_restart_attempts_total" .counter
      "Restart intentions persisted before command execution." r.attempts.toNat ++
    headed "watchdog_restarts_total" .counter
      "Successful Docker restart commands since Go cutover." r.restarts.toNat ++
    headed "watchdog_restart_failures_total" .counter
      "Failed or timed out Docker restart commands since Go cutover." r.failures.toNat ++
    headed "watchdog_notification_attempts_total" .counter
      "Notification helper invocations since Go cutover." r.notifications.toNat ++
    headed "watchdog_notification_failures_total" .counter
      "Unsuccessful notification helper invocations since Go cutover."
      r.notificationFailures.toNat ++
    containerMetrics.flatMap headers ++
    (sortNames r.containers.keys).flatMap fun name =>
      ((r.container name).observations budget name).map .sample

theorem two_lines (help name text type kind : Line) :
    help ++ name ++ ' ' :: text ++ '\n' :: type ++ name ++ ' ' :: kind ++ ['\n'] =
      (help ++ name ++ ' ' :: text ++ ['\n']) ++
        ((type ++ name ++ ' ' :: kind ++ ['\n']) ++ []) := by
  simp only [List.append_assoc, List.cons_append, List.nil_append, List.append_nil]

theorem writeMetric_eq (name : String) (kind : Kind) (help : String) (value : Int) :
    writeMetric name kind help value = print (headed name kind help value) :=
  three_lines _ _ _ _ _ _

theorem writeHeader_eq (metric : String) : writeHeader metric = print (headers metric) :=
  two_lines _ _ _ _ _

/-- A valid name has nothing to escape. -/
theorem escape_lineOf {name : Name} (valid : namePattern name = true) :
    (lineOf name).flatMap Exposition.escape = lineOf name := by
  have each : ∀ char ∈ lineOf name, Exposition.escape char = [char] := by
    intro char member
    have plain := (lineOf_plain valid char member).1
    have newline : char ≠ '\n' := by
      rintro rfl
      exact absurd plain.2.2 (by decide)
    rw [Exposition.escape, if_neg plain.2.1, if_neg newline, if_neg plain.1]
  rw [List.flatMap_congr each, List.flatMap_singleton']

theorem writeContainer_eq (metric : String) {name : Name} (valid : namePattern name = true)
    (value : Int) : writeContainer metric name value =
      print [.sample ⟨metric.toList, [("container".toList, lineOf name)], value⟩] := by
  have printed : print [.sample ⟨metric.toList, [("container".toList, lineOf name)], value⟩] =
      (metric.toList ++ '\x7b' :: (("container".toList ++ '=' :: '"' ::
        ((lineOf name).flatMap Exposition.escape ++ ['"'])) ++ ['\x7d']) ++
          ' ' :: decimal value ++ ['\n']) ++ [] := rfl
  rw [printed, escape_lineOf valid, writeContainer]
  simp only [List.append_assoc, List.cons_append, List.nil_append, List.append_nil]

def Result.Named (r : Result) : Prop := ∀ name ∈ r.containers, namePattern name = true

section Reading

variable {r : Result} {budget : Int}

theorem Container.metrics_eq {name : Name} (valid : namePattern name = true) (c : Container) :
    c.metrics budget name = print ((c.observations budget name).map .sample) := by
  have each (metric : String) (value : Int) := writeContainer_eq metric valid value
  rw [Container.metrics, each, each, each, each, each, ← print_both, ← print_both, ← print_both,
    ← print_both]
  rfl

theorem Result.metrics_eq (named : r.Named) :
    r.metrics budget = print (r.exposition budget) := by
  have containers : (sortNames r.containers.keys).flatMap
      (fun name => (r.container name).metrics budget name) =
        print ((sortNames r.containers.keys).flatMap fun name =>
          ((r.container name).observations budget name).map .sample) := by
    rw [print_flat]
    exact List.flatMap_congr fun name member =>
      Container.metrics_eq (named name (Result.mem_sorted.mp member)) _
  have written : containerMetrics.flatMap writeHeader =
      print (containerMetrics.flatMap headers) := by
    rw [print_flat]
    exact List.flatMap_congr fun metric _ => writeHeader_eq metric
  rw [Result.metrics, Result.exposition, containers, written]
  simp only [writeMetric_eq, print_both]

theorem headed_plain {name help : String} {kind : Kind} {value : Int}
    (named : Exposition.Named Exposition.isNameChar name.toList)
    (clear : Exposition.Clear help.toList) :
    ∀ entry ∈ headed name kind help value, entry.Plain := by
  simp only [headed, List.forall_mem_cons, List.not_mem_nil, false_implies, implies_true, and_true]
  exact ⟨⟨named, clear⟩, named, named, List.forall_mem_nil _⟩

theorem containerMetrics_named :
    ∀ metric ∈ containerMetrics, Exposition.Named Exposition.isNameChar metric.toList := by
  simp only [containerMetrics, List.forall_mem_cons, List.not_mem_nil, false_implies, implies_true,
    and_true]
  refine ⟨?_, ?_, ?_, ?_, ?_⟩ <;> exact Exposition.named_literal rfl (by decide)

theorem Container.observed_metric {c : Container} {name : Name} {sample : Sample}
    (member : sample ∈ c.observations budget name) :
    ∃ metric ∈ containerMetrics, sample.series =
      (metric.toList, [("container".toList, lineOf name)]) := by
  simp only [observations, List.mem_cons, List.not_mem_nil, or_false] at member
  rcases member with rfl | rfl | rfl | rfl | rfl
  · exact ⟨"watchdog_unhealthy", by simp [containerMetrics], rfl⟩
  · exact ⟨"watchdog_consecutive_unhealthy", by simp [containerMetrics], rfl⟩
  · exact ⟨"watchdog_restarts_24h", by simp [containerMetrics], rfl⟩
  · exact ⟨"watchdog_restart_failed", by simp [containerMetrics], rfl⟩
  · exact ⟨"watchdog_budget_exhausted", by simp [containerMetrics], rfl⟩

theorem Container.observation_plain {c : Container} {name : Name} {sample : Sample}
    (member : sample ∈ c.observations budget name) : (Entry.sample sample).Plain := by
  rcases c.observed_metric member with ⟨metric, listed, series⟩
  have labelled : Exposition.Named Exposition.isLabelChar "container".toList :=
    Exposition.named_literal rfl (by decide)
  have same := Prod.mk.inj series
  refine ⟨same.1 ▸ containerMetrics_named metric listed, ?_⟩
  rw [same.2]
  simpa using labelled

theorem Result.exposition_plain : ∀ entry ∈ r.exposition budget, entry.Plain := by
  simp only [Result.exposition, List.forall_mem_append]
  refine ⟨⟨⟨⟨⟨⟨⟨⟨⟨?_, ?_⟩, ?_⟩, ?_⟩, ?_⟩, ?_⟩, ?_⟩, ?_⟩, ?_⟩, ?_⟩
  case refine_10 =>
    intro entry member
    rcases List.mem_flatMap.mp member with ⟨name, _, own⟩
    rcases List.mem_map.mp own with ⟨sample, shown, rfl⟩
    exact Container.observation_plain shown
  case refine_9 =>
    intro entry member
    rcases List.mem_flatMap.mp member with ⟨metric, listed, own⟩
    have named := containerMetrics_named metric listed
    have clear : Exposition.Clear "Current container watchdog observation.".toList :=
      Exposition.clear_literal rfl (by decide)
    simp only [headers, List.mem_cons, List.not_mem_nil, or_false] at own
    rcases own with rfl | rfl
    · exact ⟨named, clear⟩
    · exact named
  all_goals
    exact headed_plain (Exposition.named_literal rfl (by decide))
      (Exposition.clear_literal rfl (by decide))

theorem mem_headed {name help : String} {kind : Kind} {value : Int} {sample : Sample} :
    .sample sample ∈ headed name kind help value ↔ sample = ⟨name.toList, [], value⟩ := by
  simp [headed]

theorem Result.mem_exposition {sample : Sample} : .sample sample ∈ r.exposition budget ↔
    sample ∈ r.totals ∨
      ∃ name ∈ r.containers, sample ∈ (r.container name).observations budget name := by
  have noHeader : Entry.sample sample ∉ containerMetrics.flatMap headers := by
    intro member
    rcases List.mem_flatMap.mp member with ⟨metric, _, own⟩
    simp [headers] at own
  have containers : Entry.sample sample ∈ ((sortNames r.containers.keys).flatMap fun name =>
      ((r.container name).observations budget name).map .sample) ↔
        ∃ name ∈ r.containers, sample ∈ (r.container name).observations budget name := by
    simp only [List.mem_flatMap, List.mem_map, Entry.sample.injEq, exists_eq_right,
      Result.mem_sorted]
  simp only [Result.exposition, List.mem_append, mem_headed, containers, noHeader, Result.totals,
    List.mem_cons, List.not_mem_nil, or_false, or_assoc]

/-- The series of a ledger are those of no container, and each has one value. -/
theorem Result.totals_series :
    (r.totals.map Sample.series).Nodup ∧ ∀ sample ∈ r.totals, sample.labels = [] := by
  have distinct : ["watchdog_last_run_timestamp_seconds", "watchdog_success",
      "watchdog_docker_read_success", "watchdog_restart_attempts_total",
      "watchdog_restarts_total", "watchdog_restart_failures_total",
      "watchdog_notification_attempts_total", "watchdog_notification_failures_total"].Nodup := by
    decide
  refine ⟨distinct.map (f := fun metric : String => (metric.toList, [])) fun one other same =>
    String.toList_inj.mp (Prod.mk.inj same).1, ?_⟩
  simp [Result.totals]

theorem Container.observations_series {c : Container} {name : Name} :
    ((c.observations budget name).map Sample.series).Nodup := by
  have distinct : containerMetrics.Nodup := by decide
  exact distinct.map (f := fun metric : String =>
    (metric.toList, [("container".toList, lineOf name)])) fun one other same =>
      String.toList_inj.mp (Prod.mk.inj same).1

theorem lineOf_inj {name other : Name} (valid : namePattern name = true)
    (valid' : namePattern other = true) (same : lineOf name = lineOf other) : name = other := by
  rw [← nameOf_lineOf valid, ← nameOf_lineOf valid', same]

/-- What is printed of a ledger is what a scraper reads. -/
theorem metrics_scraped (named : r.Named) : Scraped (r.metrics budget) r budget := by
  refine ⟨r.exposition budget, ?_, fun sample => Result.mem_exposition, ?_⟩
  · rw [Result.metrics_eq named]
    exact Exposition.parse_print Result.exposition_plain
  · intro one other first second same
    rcases Result.mem_exposition.mp first with total | ⟨name, listed, shown⟩
    · rcases Result.mem_exposition.mp second with total' | ⟨name', _, shown'⟩
      · exact List.inj_on_of_nodup_map Result.totals_series.1 total total' same
      · rcases Container.observed_metric shown' with ⟨metric, _, series⟩
        have labels := (Prod.mk.inj (same.trans series)).2
        rw [Result.totals_series.2 one total] at labels
        cases labels
    · rcases Container.observed_metric shown with ⟨metric, _, series⟩
      rcases Result.mem_exposition.mp second with total' | ⟨name', listed', shown'⟩
      · have labels := (Prod.mk.inj (same.symm.trans series)).2
        rw [Result.totals_series.2 other total'] at labels
        cases labels
      · rcases Container.observed_metric shown' with ⟨metric', _, series'⟩
        have labels := (Prod.mk.inj (series.symm.trans (same.trans series'))).2
        have written : lineOf name = lineOf name' := by
          simpa using labels
        have equal := lineOf_inj (named name listed) (named name' listed') written
        subst equal
        exact List.inj_on_of_nodup_map Container.observations_series shown shown' same

end Reading

/-! ## What is printed is on disk -/

/-- A text is written for scrapers: it is the ledger's that is on disk. -/
def Published (cfg : Config) (moment : Moment interface World) : Prop :=
  ∀ r budget, moment.operation = .writeTextfile r budget →
    moment.before.ledger = .document r ∧ r.Named ∧ budget = cfg.maxRestarts

/-- An action that writes such texts only, and returns what `ends` says. -/
def Publishes (cfg : Config) {α : Type} (ends : α → Prop) (action : Go α) : Prop :=
  ∀ past world, Attempt.Guarded system (fun _ => Published cfg) (fun _ _ result => ends result)
    (fun _ _ _ => True) action past world

namespace Publishes

variable {cfg : Config} {α β : Type} {ends middle : α → Prop}

theorem pure {result : α} (holds : ends result) : Publishes cfg ends (Pure.pure result : Go α) :=
  fun _ _ => holds

theorem throw (message : String) : Publishes cfg ends (MonadExcept.throw message : Go α) :=
  fun _ _ => trivial

theorem ofExcept {value : Except String α} (holds : ∀ result, value = .ok result → ends result) :
    Publishes cfg ends (Attempt.ofExcept value) := by
  cases value with
  | ok result => exact pure (holds result rfl)
  | error message => exact throw message

theorem bind {last : β → Prop} {action : Go α} {rest : α → Go β}
    (first : Publishes cfg middle action)
    (second : ∀ result, middle result → Publishes cfg last (rest result)) :
    Publishes cfg last (action >>= rest) :=
  fun past world => Attempt.bind (first past world) fun past world result holds =>
    second result holds past world

/-- An operation that writes no text. -/
theorem call {operation : Operation}
    (silent : ∀ r budget, operation ≠ .writeTextfile r budget) :
    Publishes cfg (fun _ => True) (ExceptT.lift (.call operation .done) : Go (Answer operation)) :=
  fun _ _ => Attempt.lift_iff.mpr fun _ _ _ =>
    ⟨fun r budget same => absurd same (silent r budget), trivial⟩

theorem demand {operation : Operation} {read : Answer operation → Except String α}
    (silent : ∀ r budget, operation ≠ .writeTextfile r budget) :
    Publishes cfg (fun _ => True)
      (.ofProgram (.call operation fun answer => .done (read answer))) := by
  intro past world answer after step
  refine ⟨fun r budget same => absurd same (silent r budget), ?_⟩
  rw [Guarded.done_iff]
  cases read answer <;> trivial

end Publishes

section Publishing

variable {cfg : Config} {now : Int} {scan : Scan} {r : Result} {name : Name} {α : Type}

theorem publish_publishes (named : r.Named) : Publishes cfg (fun _ => True) (publish cfg r) := by
  intro past world
  apply Attempt.bind_iff.mpr
  intro answer after step
  refine ⟨fun r' budget same => (by cases same), ?_⟩
  change Except String Unit at answer
  cases answer with
  | error message => trivial
  | ok _ =>
      have written : after = { world with ledger := .document r } := step
      subst written
      change Attempt.Guarded system (fun _ => Published cfg) (fun _ _ _ => True) (fun _ _ _ => True)
        (writeTextfile r cfg.maxRestarts) _ _
      intro answer after _
      refine ⟨fun r' budget same => ?_, ?_⟩
      · cases same
        exact ⟨rfl, named, rfl⟩
      · change Except String Unit at answer
        cases answer <;> trivial

theorem orFail_publishes {ends : α → Prop} {action : Go α} (named : r.Named)
    (publishes : Publishes cfg ends action) : Publishes cfg ends (orFail cfg r action) := by
  have settled : Publishes cfg (fun outcome => ∀ result, outcome = .ok result → ends result)
      action.outcome := by
    intro past world
    refine Attempt.outcome_iff.mpr (Guarded.post_mono (publishes past world) ?_)
    intro past world outcome holds result same
    rw [same] at holds
    exact holds
  refine settled.bind fun outcome holds => ?_
  cases outcome with
  | ok result => exact .pure (holds result rfl)
  | error message => exact (publish_publishes named).bind fun _ _ => .throw message

theorem saveLegacy_publishes {s : State} (named : r.Named) :
    Publishes cfg (fun _ => True) (orFail cfg r (saveLegacy name s)) :=
  orFail_publishes named (.demand (by simp))

theorem Result.Named.set (named : r.Named) (valid : namePattern name = true) (c : Container) :
    (r.setContainer name c).Named := by
  intro other member
  rcases (AList.mem_insert _).mp member with same | before
  · exact same ▸ valid
  · exact named other before

theorem notify_publishes {title priority tags body : Bytes} (named : r.Named) :
    Publishes cfg Result.Named (notify cfg r title priority tags body) := by
  have counted : Result.Named { r with notifications := r.notifications + 1 } := named
  have failed : Result.Named { r with
      notifications := r.notifications + 1
      notificationFailures := r.notificationFailures + 1 } := named
  have command : Publishes cfg (fun _ => True) (notifyCommand title priority tags body) :=
    .call fun _ _ => nofun
  refine (publish_publishes counted).bind fun _ _ => command.bind fun answer _ => ?_
  cases answer with
  | ok _ => exact (publish_publishes counted).bind fun _ _ => .pure counted
  | error message => exact (publish_publishes failed).bind fun _ _ => .pure failed

theorem tendRestart_publishes {planned : State} {c : Container} (named : r.Named)
    (valid : namePattern name = true) :
    Publishes cfg Result.Named (tendRestart cfg now planned r name c) := by
  have attempted : Result.Named { r with attempts := r.attempts + 1 } := named
  let intention := { r with attempts := r.attempts + 1 }.setContainer name
    { c with restartFailed := true }
  have intended : intention.Named := attempted.set valid _
  have command : Publishes cfg (fun _ => True) (restartCommand name) := .call fun _ _ => nofun
  refine (publish_publishes intended).bind fun _ _ => command.bind fun answer _ => ?_
  cases answer with
  | ok _ =>
      have restarted : Result.Named { intention with restarts := intention.restarts + 1 } :=
        intended
      have done := restarted.set valid
        { c with restartFailed := false, state := c.state.restarted now }
      refine (saveLegacy_publishes done).bind fun _ _ => ?_
      exact (publish_publishes done).bind fun _ _ => notify_publishes done
  | error message =>
      have failed : Result.Named { intention with failures := intention.failures + 1 } := intended
      have done := failed.set valid { c with restartFailed := true }
      refine (saveLegacy_publishes done).bind fun _ _ =>
        (publish_publishes done).bind fun _ _ => ?_
      split
      · have alerted := done.set valid
          { c with restartFailed := true, state := { c.state with lastAlert := now } }
        exact (saveLegacy_publishes alerted).bind fun _ _ => notify_publishes alerted
      · exact .pure done

theorem act_publishes {p : Plan} {c : Container} (named : r.Named)
    (valid : namePattern name = true) : Publishes cfg Result.Named (act cfg now p r name c) := by
  unfold act
  split
  · exact tendRestart_publishes named valid
  · split
    · exact notify_publishes named
    · exact .pure named
  · exact .pure named

theorem tend_publishes (named : r.Named) (valid : namePattern name = true) :
    Publishes cfg Result.Named (tend cfg now scan r name) := by
  unfold tend
  split
  · exact (saveLegacy_publishes named).bind fun _ _ => act_publishes named valid
  · exact act_publishes named valid

theorem tendAll_publishes {names : List Name} (named : r.Named)
    (valid : ∀ name ∈ names, namePattern name = true) :
    Publishes cfg Result.Named (tendAll cfg now scan r names) := by
  induction names generalizing r with
  | nil => exact .pure named
  | cons head rest induction =>
      refine (tend_publishes named (valid head List.mem_cons_self)).bind fun next named' => ?_
      exact induction named' fun name member => valid name (List.mem_cons_of_mem _ member)

theorem collect_publishes {files : List Name} (named : r.Named) :
    Publishes cfg (fun _ => True) (collect cfg scan r files) := by
  induction files with
  | nil => exact .pure trivial
  | cons head rest induction =>
      unfold collect
      split
      · have silent : ∀ ledger budget,
            Operation.removeState head ≠ .writeTextfile ledger budget := by simp
        have removed : Publishes cfg (fun _ => True) (orFail cfg r (removeState head)) :=
          orFail_publishes named (.demand silent)
        exact removed.bind fun _ _ => induction
      · exact induction

theorem observed_named (valid : ∀ name ∈ scan.all, namePattern name = true) :
    Result.Named { r with dockerReadOk := true, containers := observed cfg now scan r } := by
  intro name member
  have found := AList.lookup_isSome.mpr member
  rw [observed_lookup] at found
  split at found
  · next listed => exact valid name listed
  · cases found

theorem actOn_publishes (valid : ∀ name ∈ scan.all, namePattern name = true) :
    Publishes cfg (fun _ => True) (actOn cfg now scan r) := by
  have start : Result.Named
      { r with dockerReadOk := true, containers := observed cfg now scan r } :=
    observed_named valid
  refine (publish_publishes start).bind fun _ _ => ?_
  refine (tendAll_publishes start valid).bind fun last named => ?_
  have listed : Publishes cfg (fun _ => True) (orFail cfg last globStates) :=
    orFail_publishes named (.demand fun _ _ => nofun)
  refine listed.bind fun files _ => ?_
  exact (collect_publishes named).bind fun _ _ => publish_publishes named

theorem readStates_publishes (names : List Name) :
    Publishes cfg (fun _ => True) (readStates names) := by
  induction names with
  | nil => exact .pure trivial
  | cons name rest induction =>
      have read : Publishes cfg (fun _ => True) (readState name) := .call fun _ _ => nofun
      refine read.bind fun answer _ => ?_
      cases answer with
      | notExist => exact induction
      | failed message => exact .throw message
      | data content =>
          refine Publishes.bind (.ofExcept fun _ _ => trivial) fun s _ => ?_
          exact induction.bind fun states _ => .pure trivial

/-- What is read has valid names only. -/
theorem readScan_publishes :
    Publishes cfg (fun scan => ∀ name ∈ scan.all, namePattern name = true) readScan := by
  have first : Publishes cfg (fun _ => True) psUnhealthy := .call fun _ _ => nofun
  have second : Publishes cfg (fun _ => True) psAll := .call fun _ _ => nofun
  refine first.bind fun answer _ => ?_
  refine Publishes.bind (.ofExcept fun _ _ => trivial) fun u _ => ?_
  refine second.bind fun answer' _ => ?_
  refine Publishes.bind (.ofExcept fun _ _ => trivial) fun a _ => ?_
  refine Publishes.bind (.ofExcept fun _ _ => trivial) fun unhealthy _ => ?_
  refine Publishes.bind (.ofExcept fun _ same => same) fun ⟨all, rows⟩ parsed => ?_
  have valid := inventory_valid parsed
  change Publishes cfg _ (if consistent unhealthy all rows then _ else _)
  split
  · exact (readStates_publishes all).bind fun _ _ => .pure valid
  · exact .throw _

theorem accepted_named {answer : LedgerRead} (accepted : acceptLedger answer = .ok r) :
    r.Named := by
  cases answer with
  | notExist =>
      cases accepted
      exact fun _ member => nomatch member
  | failed message => cases accepted
  | malformed => cases accepted
  | decoded ledger =>
      rw [acceptLedger] at accepted
      split at accepted
      · cases accepted
      · split at accepted
        · next valid =>
            cases accepted
            intro name member
            exact List.all_eq_true.mp valid name (AList.mem_keys.mpr member)
        · cases accepted

theorem execute_publishes : Publishes cfg (fun _ => True) (execute cfg now) := by
  refine Publishes.bind (.ofExcept fun _ _ => trivial) fun _ _ => ?_
  have read : Publishes cfg (fun _ => True) readLedger := .call fun _ _ => nofun
  refine read.bind fun answer _ => ?_
  refine Publishes.bind (.ofExcept fun r accepted => accepted_named accepted) fun r named => ?_
  have log : Publishes cfg (fun _ => True) openLog := .demand fun _ _ => nofun
  refine log.bind fun _ _ => ?_
  have carried : Result.Named { r with lastRun := now, success := false, dockerReadOk := false } :=
    named
  refine (orFail_publishes carried readScan_publishes).bind fun scan valid => ?_
  exact actOn_publishes valid

end Publishing

/-- In every history, whatever is put up for scrapers is read as the ledger that is on disk by
then: a scraper never sees a count that is not durable, and sees each container once. -/
theorem scraped_is_durable {initial final : World} {runs : List ScanRun}
    (scans : Scans initial runs final) :
    ∀ run ∈ runs, ∀ moment ∈ run.moments, ∀ r budget,
      moment.operation = .writeTextfile r budget →
      moment.before.ledger = .document r ∧ budget = run.parameter.1.maxRestarts ∧
        Scraped (r.metrics budget) r budget := by
  intro run member moment listed r budget same
  rcases List.append_of_mem member with ⟨before, after, split⟩
  rw [split] at scans
  rcases List.append_of_mem listed with ⟨earlier, later, here⟩
  have published : Published run.parameter.1 moment :=
    Guarded.moment_good (execute_publishes [] run.before) scans.split.2 here
  rcases published r budget same with ⟨durable, named, limit⟩
  exact ⟨durable, limit, metrics_scraped named⟩

/-- The first scan puts texts up. -/
theorem scraped_is_durable_firstScan :
    (∃ moment ∈ firstScan.moments, ¬∀ r budget, moment.operation ≠ .writeTextfile r budget) ∧
      ∀ run ∈ [firstScan], ∀ moment ∈ run.moments, ∀ r budget,
        moment.operation = .writeTextfile r budget →
        moment.before.ledger = .document r ∧ budget = run.parameter.1.maxRestarts ∧
          Scraped (r.metrics budget) r budget := by
  have shown : ∃ moment ∈ firstScan.moments,
      (match moment.operation with | .writeTextfile _ _ => true | _ => false) = true := by
    decide +kernel
  rcases shown with ⟨moment, member, shown⟩
  refine ⟨⟨moment, member, fun never => ?_⟩, scraped_is_durable firstScan_scans⟩
  split at shown
  · next r budget same => exact never r budget same
  · cases shown

end Homelab.Watchdog
