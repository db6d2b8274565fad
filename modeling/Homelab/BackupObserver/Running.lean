import Homelab.BackupObserver.Observer

/-! # What is last said of a run

Each publication says that the observer is running, but for the one at the very end, which no
other return reaches.
-/

namespace Homelab.BackupObserver

open Text GoText GoJson LineScanner

def shown (name : String) (published : List Metric) : Option Value :=
  (published.find? fun metric => metric.name = name).map Metric.value

def runningOf (published : List Metric) : Option Value := shown "gdrive_backup_running" published

def lastRunning (o : Observer) : Option Value := o.published.getLast?.bind runningOf

structure Clean (host : Host) : Prop where
  ends : host.source.fault = .eof
  fits : host.source.Fits limit
  writes : ∀ number < (linesOf host.source.bytes).length, host.writes number = none
  closes : host.closes = true

theorem runningOf_metrics (now running : Int) (o : Observer) :
    runningOf (metrics now running o) = some (.whole running) := by
  simp [runningOf, shown, metrics]

def Runs (o : Observer) : Prop :=
  o.published ≠ [] ∧ ∀ published ∈ o.published, runningOf published = some (.whole 1)

theorem Runs.last {o : Observer} (runs : Runs o) : lastRunning o = some (.whole 1) := by
  rw [lastRunning, List.getLast?_eq_some_getLast runs.1]
  exact runs.2 _ (List.getLast_mem runs.1)

section

variable {host : Host} (publishes : ∀ number, host.publishes number = true)
include publishes

theorem emit_publishes (running : Int) (o : Observer) :
    ∃ now, emit host running o = ({ o with
      emits := o.emits + 1, published := o.published ++ [metrics now running o] }, none) := by
  rw [emit, if_pos (publishes o.emits)]
  exact ⟨_, rfl⟩

/-- A line is logged, or its write ends the run. The observer runs on either way. -/
theorem handle_runs {o : Observer} (runs : Runs o) (logged line : Line) :
    ∃ after, Runs after ∧
      ((host.writes o.writes = none ∧ handle host logged line o = (after, none) ∧
          after.writes = o.writes + 1) ∨
        (host.writes o.writes ≠ none ∧ handle host logged line o = (after, some .write))) := by
  rcases written : host.writes o.writes with _ | kept
  · let logged_ := { o with writes := o.writes + 1, log := o.log ++ logged }
    have goes : write host logged o = (logged_, none) := by
      rw [write, written]
    rw [handle, goes]
    simp only
    rcases unmarshal line with _ | e
    · exact ⟨logged_, runs, .inl ⟨trivial, rfl, rfl⟩⟩
    · rcases count_kept e logged_ with ⟨_, writes, published⟩
      have runs' : Runs (count e logged_) := by
        rw [Runs, published]
        exact runs
      simp only
      split
      · rcases emit_publishes publishes 1 (count e logged_) with ⟨now, emitted⟩
        rw [emitted]
        refine ⟨_, ⟨by simp, fun published member => ?_⟩, .inl ⟨trivial, rfl, writes⟩⟩
        rcases List.mem_append.mp member with earlier | last
        · exact runs'.2 published earlier
        · rw [List.mem_singleton.mp last]
          exact runningOf_metrics _ _ _
      · exact ⟨_, runs', .inl ⟨trivial, rfl, writes⟩⟩
  · have ends : write host logged o = ({ o with
        writes := o.writes + 1, log := o.log ++ logged.take kept }, some .write) := by
      rw [write, written]
    rw [handle, ends]
    exact ⟨{ o with writes := o.writes + 1, log := o.log ++ logged.take kept }, runs,
      .inr ⟨by simp, rfl⟩⟩

theorem handleAll_runs {o : Observer} (runs : Runs o) (lines : List Line) :
    ∃ after, Runs after ∧
      (((∀ number < lines.length, host.writes (o.writes + number) = none) ∧
          handleAll host lines o = (after, none)) ∨
        (¬(∀ number < lines.length, host.writes (o.writes + number) = none) ∧
          handleAll host lines o = (after, some .write))) := by
  induction lines generalizing o with
  | nil => exact ⟨o, runs, .inl ⟨fun _ below => absurd below (Nat.not_lt_zero _), rfl⟩⟩
  | cons line rest induction =>
      rcases handle_runs publishes runs (line ++ ['\n']) line with
        ⟨middle, runs', ⟨written, handled, next⟩ | ⟨failed, handled⟩⟩
      · rcases induction runs' with ⟨after, runs'', ends⟩
        have later : (∀ number < (line :: rest).length, host.writes (o.writes + number) = none) ↔
            ∀ number < rest.length, host.writes (middle.writes + number) = none := by
          rw [next]
          constructor
          · intro all number below
            rw [Nat.add_assoc, Nat.add_comm 1]
            exact all (number + 1) (Nat.succ_lt_succ below)
          · intro all number below
            rcases number with _ | number
            · exact written
            · have own := all number (Nat.lt_of_succ_lt_succ below)
              rwa [Nat.add_assoc, Nat.add_comm 1] at own
        rw [later, handleAll_goes handled]
        exact ⟨after, runs'', ends⟩
      · refine ⟨middle, runs', .inr ⟨fun all => failed ?_, handleAll_ends handled rest⟩⟩
        exact all 0 (Nat.succ_pos _)

theorem running_iff (opens : host.opens = true) :
    lastRunning (observe host).1 = some (.whole 0) ↔ Clean host := by
  rcases emit_publishes publishes 1 .start with ⟨now, begins⟩
  have runs : Runs { Observer.start with
      emits := Observer.start.emits + 1
      published := Observer.start.published ++ [metrics now 1 .start] } := by
    refine ⟨by simp, fun published member => ?_⟩
    rw [List.mem_singleton.mp (show published ∈ [metrics now 1 .start] from member)]
    exact runningOf_metrics _ _ _
  rcases observe_eq opens begins with ⟨lines, fault, yields, ends⟩
  rcases handleAll_runs publishes runs lines with ⟨after, runs', handled⟩
  have stays : lastRunning after ≠ some (.whole 0) := by
    rw [runs'.last]
    simp
  rw [ends]
  rcases handled with ⟨written, handled⟩ | ⟨failed, handled⟩
  · rw [handled]
    simp only [Observer.start, Nat.zero_add] at written
    simp only
    rcases yields.lines (by decide) with ⟨fits, rfl, rfl⟩ | ⟨long, rfl⟩
    · split
      · next ended =>
          split
          · next closes =>
              rcases emit_publishes publishes 0 after with ⟨now', emitted⟩
              rw [emitted]
              refine iff_of_true ?_ ⟨ended, fits, written, closes⟩
              rw [lastRunning, List.getLast?_concat]
              exact runningOf_metrics _ _ _
          · next open_ => exact iff_of_false stays fun clean => open_ clean.closes
      · next fails => exact iff_of_false stays fun clean => fails clean.ends
    · rw [if_neg (by decide)]
      exact iff_of_false stays fun clean => long clean.fits
  · rw [handled]
    simp only [Observer.start, Nat.zero_add] at failed
    refine iff_of_false stays fun clean => ?_
    rcases yields.lines (by decide) with ⟨_, rfl, _⟩ | ⟨long, _⟩
    · exact failed clean.writes
    · exact long clean.fits

end

/-- When the observer has returned, it is shown as no longer running exactly if nothing went
wrong with the input or the log. -/
theorem observe_running_iff {host : Host} (opens : host.opens = true)
    (publishes : ∀ number, host.publishes number = true) :
    lastRunning (observe host).1 = some (.whole 0) ↔ Clean host :=
  running_iff publishes opens

/-- One line comes. -/
theorem observe_running_iff_line :
    lastRunning (observe (plainHost [⟨['x', '\n'], none⟩])).1 = some (.whole 0) ↔
      Clean (plainHost [⟨['x', '\n'], none⟩]) :=
  observe_running_iff rfl fun _ => rfl

/-- The input fails at once. -/
theorem observe_failed_running :
    lastRunning (observe (plainHost [⟨[], some .failed⟩])).1 ≠ some (.whole 0) := by
  rw [Ne, running_iff (fun _ => rfl) rfl]
  intro clean
  cases clean.ends

end Homelab.BackupObserver
