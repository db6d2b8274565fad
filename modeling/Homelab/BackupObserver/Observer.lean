import Homelab.Foundation.GoJson
import Homelab.Foundation.LineScanner

/-! # The observer of a backup

`Observe` appends what rclone says to a log, line by line, and publishes the progress that it
reads there. The scanner's own buffer is written to on the way, which changes no line.
-/

namespace Homelab.BackupObserver

open Text GoText GoJson LineScanner

/-! ## Events -/

structure Stats where
  bytes : Int
  errors : Int
  totalBytes : Int
  speed : ℚ
deriving DecidableEq

structure Event where
  level : Line
  stats : Option Stats
deriving DecidableEq

def Stats.zero : Stats := ⟨0, 0, 0, 0⟩

def Event.zero : Event := ⟨[], none⟩

/-- One field of `stats`. Other names are left out. -/
def Stats.set (s : Stats) (field : Line × Tree) : Option Stats :=
  let (name, tree) := field
  if sameName "bytes" name then
    (readInt tree s.bytes).map fun value => { s with bytes := value }
  else if sameName "errors" name then
    (readInt tree s.errors).map fun value => { s with errors := value }
  else if sameName "totalBytes" name then
    (readInt tree s.totalBytes).map fun value => { s with totalBytes := value }
  else if sameName "speed" name then
    (readReal tree s.speed).map fun value => { s with speed := value }
  else some s

/-- One field of the event. `stats` that come twice are put into one another. -/
def Event.set (e : Event) (field : Line × Tree) : Option Event :=
  let (name, tree) := field
  if sameName "level" name then
    match tree with
    | .null => some e
    | .str text => some { e with level := text }
    | _ => none
  else if sameName "stats" name then
    match tree with
    | .null => some { e with stats := none }
    | .dict fields =>
        (fields.foldlM Stats.set (e.stats.getD .zero)).map fun stats =>
          { e with stats := some stats }
    | _ => none
  else some e

def decode : Tree → Option Event
  | .null => some .zero
  | .dict fields => fields.foldlM Event.set .zero
  | _ => none

/-- `json.Unmarshal`, none where it fails. -/
def unmarshal (line : Line) : Option Event := (parse (runes line)).bind decode

/-- `strings.EqualFold(e.Level, "error")`. -/
def Event.isError (e : Event) : Bool := sameName "error" e.level

/-! ## The surroundings -/

/-- What a run meets: whether the log opens, what the input delivers, how each write to the log
and its close end, whether each publication succeeds, and the time of it. -/
structure Host where
  opens : Bool
  input : Reader
  /-- How many bytes a write that fails has written. -/
  writes : Nat → Option Nat
  closes : Bool
  publishes : Nat → Bool
  now : Nat → Int

/-- Nothing fails but what the input says. -/
def plainHost (input : Reader) : Host :=
  ⟨true, input, fun _ => none, true, fun _ => true, fun _ => 0⟩

inductive Error
  | open
  | write
  | publish
  | input (fault : Fault)
  | close
deriving DecidableEq

inductive Value
  | whole (value : Int)
  | real (value : ℚ)
deriving DecidableEq

structure Metric where
  name : String
  help : String
  value : Value

structure Summary where
  bytes : Int
  errors : Int
deriving DecidableEq

/-- The variables of `Observe` without the scanner, what it has appended to the log, and what it
has published. -/
structure Observer where
  result : Summary
  total : Int
  speed : ℚ
  errorLines : Int
  log : Line
  writes : Nat
  published : List (List Metric)
  emits : Nat

def Observer.start : Observer := ⟨⟨0, 0⟩, 0, 0, 0, [], 0, [], 0⟩

/-! ## Steps -/

def metrics (now running : Int) (o : Observer) : List Metric :=
  [⟨"gdrive_backup_progress_timestamp_seconds", "Last observer update.", .whole now⟩,
    ⟨"gdrive_backup_running", "1 while the observer is receiving sync output.", .whole running⟩,
    ⟨"gdrive_backup_progress_bytes", "Bytes transferred in the current or last sync.",
      .whole o.result.bytes⟩,
    ⟨"gdrive_backup_progress_total_bytes", "Known total bytes in the sync.", .whole o.total⟩,
    ⟨"gdrive_backup_progress_errors", "Errors observed in the sync.", .whole o.result.errors⟩,
    ⟨"gdrive_backup_progress_bytes_per_second", "Latest transfer rate.", .real o.speed⟩]

/-- `emit`. A publication that fails leaves the file as it was. -/
def emit (host : Host) (running : Int) (o : Observer) : Observer × Option Error :=
  if host.publishes o.emits then
    ({ o with
      emits := o.emits + 1
      published := o.published ++ [metrics (host.now o.emits) running o] }, none)
  else ({ o with emits := o.emits + 1 }, some .publish)

/-- `log.Write`. -/
def write (host : Host) (bytes : Line) (o : Observer) : Observer × Option Error :=
  match host.writes o.writes with
  | none => ({ o with writes := o.writes + 1, log := o.log ++ bytes }, none)
  | some count =>
      ({ o with writes := o.writes + 1, log := o.log ++ bytes.take count }, some .write)

def countError (e : Event) (o : Observer) : Observer :=
  if e.isError then { o with errorLines := o.errorLines + 1 } else o

def takeStats (e : Event) (o : Observer) : Observer :=
  match e.stats with
  | some s => { o with result := ⟨s.bytes, s.errors⟩, total := s.totalBytes, speed := s.speed }
  | none => o

def raiseErrors (o : Observer) : Observer :=
  if o.result.errors < o.errorLines then { o with result.errors := o.errorLines } else o

def count (e : Event) (o : Observer) : Observer := raiseErrors (takeStats e (countError e o))

def handle (host : Host) (logged line : Line) (o : Observer) : Observer × Option Error :=
  match write host logged o with
  | (o, some error) => (o, some error)
  | (o, none) =>
      match unmarshal line with
      | none => (o, none)
      | some e =>
          if e.stats.isSome || e.isError then emit host 1 (count e o) else (count e o, none)

/-- `for scanner.Scan()`. `steps` bounds the work and never runs out. -/
def loop (host : Host) : Nat → Scanner → Observer → Scanner × Observer × Option Error
  | 0, scanner, o => (scanner, o, none)
  | steps + 1, scanner, o =>
      match scanner.scan with
      | (none, scanner) => (scanner, o, none)
      | (some token, scanner) =>
          let (logged, scanner) := scanner.append token '\n'
          match handle host logged (scanner.text token) o with
          | (o, some error) => (scanner, o, some error)
          | (o, none) => loop host steps scanner o

def bufferSize : Nat := 65536

def limit : Nat := 4 * 2 ^ 20

def finish (host : Host) (scanner : Scanner) (o : Observer) : Observer × Option Error :=
  match scanner.error with
  | some fault => (o, some (.input fault))
  | none => if host.closes then emit host 0 o else (o, some .close)

/-- `Observe`: what was logged, published and counted at the return, and the error of it. -/
def observe (host : Host) : Observer × Option Error :=
  if host.opens then
    match emit host 1 .start with
    | (o, some error) => (o, some error)
    | (o, none) =>
        match loop host (Reader.weight host.input + 1)
            (newScanner host.input bufferSize limit) o with
        | (_, o, some error) => (o, some error)
        | (scanner, o, none) => finish host scanner o
  else (.start, some .open)

/-- The log and the publications are not touched. -/
theorem count_kept (e : Event) (o : Observer) :
    (count e o).log = o.log ∧ (count e o).writes = o.writes ∧
      (count e o).published = o.published := by
  have counted : (countError e o).log = o.log ∧ (countError e o).writes = o.writes ∧
      (countError e o).published = o.published := by
    rw [countError]
    split
    · exact ⟨rfl, rfl, rfl⟩
    · exact ⟨rfl, rfl, rfl⟩
  have taken : ∀ o, (takeStats e o).log = o.log ∧ (takeStats e o).writes = o.writes ∧
      (takeStats e o).published = o.published := by
    intro o
    rw [takeStats]
    cases e.stats with
    | none => exact ⟨rfl, rfl, rfl⟩
    | some s => exact ⟨rfl, rfl, rfl⟩
  have raised : ∀ o, (raiseErrors o).log = o.log ∧ (raiseErrors o).writes = o.writes ∧
      (raiseErrors o).published = o.published := by
    intro o
    rw [raiseErrors]
    split
    · exact ⟨rfl, rfl, rfl⟩
    · exact ⟨rfl, rfl, rfl⟩
  rw [count, (raised _).1, (raised _).2.1, (raised _).2.2, (taken _).1, (taken _).2.1,
    (taken _).2.2]
  exact counted

/-! ## Line by line -/

/-- The lines one after the other, whatever buffer they come through. -/
def handleAll (host : Host) : List Line → Observer → Observer × Option Error
  | [], o => (o, none)
  | line :: rest, o =>
      match handle host (line ++ ['\n']) line o with
      | (o, some error) => (o, some error)
      | (o, none) => handleAll host rest o

section

variable {host : Host} {line : Line} {o after : Observer}

theorem handleAll_goes (goes : handle host (line ++ ['\n']) line o = (after, none))
    (rest : List Line) : handleAll host (line :: rest) o = handleAll host rest after := by
  rw [handleAll, goes]

theorem handleAll_ends {error : Error}
    (ends : handle host (line ++ ['\n']) line o = (after, some error)) (rest : List Line) :
    handleAll host (line :: rest) o = (after, some error) := by
  rw [handleAll, ends]

end

/-- The buffer changes nothing: the loop handles the lines of the input up to what ends them. -/
theorem loop_eq (host : Host) {steps : Nat} {scanner : Scanner} {source : Source}
    (ready : scanner.Ready source) (positive : 0 < scanner.maxTokenSize)
    (enough : source.bytes.length < steps) (o : Observer) :
    ∃ lines fault last, Yields scanner.maxTokenSize source lines fault ∧
      loop host steps scanner o = (last, handleAll host lines o) ∧
      ((handleAll host lines o).2 = none → last.err = some fault) := by
  induction steps generalizing scanner source o with
  | zero => exact absurd enough (Nat.not_lt_zero _)
  | succ steps induction =>
      have scanned := Scanner.scan_spec ready
      rw [loop]
      generalize scanner.scan = result at scanned
      rcases result with ⟨found, next⟩
      cases scanned with
      | @line token _ line rest spelled single short text before later sameLimit =>
          rcases Scanner.append_text token '\n' next with ⟨logged, kept⟩
          rcases later.append (.inl before) '\n' with ⟨ready', sameLimit'⟩
          simp only [logged, kept, text]
          rcases handled : handle host (dropCR line ++ ['\n']) (dropCR line) o with ⟨o', _ | error⟩
          · have fewer : rest.length < steps := by
              rw [spelled, List.length_append, List.length_cons] at enough
              omega
            rw [← sameLimit, ← sameLimit'] at positive
            rcases induction ready' positive fewer o' with ⟨lines, fault, last, yields, ran, ends⟩
            rw [sameLimit', sameLimit] at yields
            rw [← handleAll_goes handled lines] at ran ends
            exact ⟨_, fault, last, .line spelled single short yields, ran, ends⟩
          · rcases yields_exists scanner.maxTokenSize { source with bytes := rest } with
              ⟨lines, fault, yields⟩
            refine ⟨_, fault, (next.append token '\n').2, .line spelled single short yields, ?_, ?_⟩
            · rw [handleAll_ends handled]
            · rw [handleAll_ends handled]
              simp
      | @last token _ some_ single fits text past later ends sameLimit =>
          rcases Scanner.append_text token '\n' next with ⟨logged, kept⟩
          rcases later.append (.inr past) '\n' with ⟨ready', sameLimit'⟩
          simp only [logged, kept, text]
          have yields := Yields.last some_ single fits
          rcases handled : handle host (dropCR source.bytes ++ ['\n']) (dropCR source.bytes) o with
            ⟨o', _ | error⟩
          · have positive' := positive
            rw [← sameLimit, ← sameLimit'] at positive'
            have fewer : ([] : Line).length < steps := by
              have some_ := List.length_pos_iff.mpr some_
              rw [List.length_nil]
              omega
            rcases induction ready' positive' fewer o' with ⟨lines, fault, last, rest, ran, ends⟩
            rcases yields_nil positive' rfl rest with ⟨rfl, rfl⟩
            rw [← handleAll_goes handled []] at ran ends
            exact ⟨_, _, last, yields, ran, ends⟩
          · refine ⟨_, _, (next.append token '\n').2, yields, ?_, ?_⟩
            · rw [handleAll_ends handled]
            · rw [handleAll_ends handled]
              simp
      | stop none_ ends => exact ⟨[], _, next, .stop none_, rfl, fun _ => ends⟩
      | tooLong spelled single long alone ends =>
          exact ⟨[], _, next, .tooLong spelled single long alone, rfl, fun _ => ends⟩

def Host.source (host : Host) : Source := Reader.whole host.input

/-- The lines of the input that are handed out, and what ends them. -/
def Host.Hands (host : Host) (lines : List Line) (fault : Fault) : Prop :=
  Yields limit host.source lines fault

/-- The end of a run whose log could be opened and whose first publication succeeded. -/
theorem observe_eq {host : Host} (opens : host.opens = true) {o : Observer}
    (begins : emit host 1 .start = (o, none)) :
    ∃ lines fault, host.Hands lines fault ∧
      observe host = match handleAll host lines o with
        | (o, some error) => (o, some error)
        | (o, none) =>
            if fault = .eof then if host.closes then emit host 0 o else (o, some .close)
            else (o, some (.input fault)) := by
  have ready : (newScanner host.input bufferSize limit).Ready host.source :=
    newScanner_ready host.input (by decide) (by decide)
  have enough : host.source.bytes.length < Reader.weight host.input + 1 :=
    Nat.lt_succ_of_le (length_source _ host.input)
  rcases loop_eq host ready (show 0 < limit by decide) enough o with
    ⟨lines, fault, last, yields, ran, ends⟩
  refine ⟨lines, fault, yields, ?_⟩
  rw [observe, if_pos opens, begins]
  simp only [ran]
  rcases handled : handleAll host lines o with ⟨o', _ | error⟩
  · rw [handled] at ends
    simp only
    rw [finish, Scanner.error, ends rfl]
    by_cases ended : fault = .eof
    · rw [if_pos (congrArg some ended), if_pos ended]
    · rw [if_neg (by simpa using ended), if_neg ended]
  · rfl

end Homelab.BackupObserver
