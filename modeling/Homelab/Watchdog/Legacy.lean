import Homelab.Watchdog.Inventory
import Homelab.Watchdog.Policy
import Mathlib.Data.List.AList

/-! # The watchdog script

One run of the shell script that the Go program took over from: it resets the containers that
are well, counts and restarts the ones that are not, and removes the state files of those that
are gone. What it logs and pushes is left out: nothing reads the log back, and the status of a
push is dropped.
-/

namespace Homelab.Watchdog.Legacy

open ByteText

/-- `mapfile -t`. -/
def mapfile (text : Bytes) : List Bytes :=
  let lines := split 10 text
  if lines.getLast? = some [] then lines.dropLast else lines

/-- A number for `[` and `$((…))`. What the script makes of a text that is no plain decimal is
not followed. -/
def number (text : Bytes) : Option Int :=
  (parseInt text).bind fun value => if decimal value = text then some value else none

/-- `${s[index]:-0}`. -/
def valueAt (lines : List Bytes) (index : Nat) : Bytes :=
  match lines[index]? with
  | none => ascii "0"
  | some [] => ascii "0"
  | some text => text

structure Policy where
  threshold : Int
  maxRestarts : Int
  alertCooldown : Int

/-- What the host answers: both listings, the clock, and whether a restart succeeds. -/
structure Host where
  unhealthy : Bytes
  existing : Bytes
  now : Int
  restarts : Name → Bool

/-- The state files, by what stands between `watchdog-` and `.state`, and the restarts. -/
structure Work where
  files : AList fun _ : Name => Bytes
  restarted : List Name

def Work.file (work : Work) (name : Name) : Option Bytes := work.files.lookup name

def Work.write (work : Work) (name : Name) (content : Bytes) : Work :=
  { work with files := work.files.insert name content }

/-- `mapfile -t s < <(read_state "$sf")`. -/
def readState (work : Work) (name : Name) : List Bytes :=
  mapfile ((work.file name).getD (ascii "0\n0\n0\n0\n"))

def writeState (work : Work) (name : Name) (cons rc lrts lats : Bytes) : Work :=
  work.write name (cons ++ 10 :: (rc ++ 10 :: (lrts ++ 10 :: (lats ++ [10]))))

/-- `printf '%s\n' "${names[@]}" | grep -qFx "$name"`. -/
def listed (names : List Bytes) (name : Name) : Bool :=
  decide (name ∈ if names = [] then [[]] else names)

/-- The first loop: containers that are not unhealthy start over, and a day after the last
restart the budget is whole again. -/
def reset (host : Host) (work : Work) (name : Name) : Option Work := do
  let s := readState work name
  let unhealthy := listed (mapfile host.unhealthy) name
  let cons := if unhealthy then valueAt s 0 else ascii "0"
  let rc := valueAt s 1
  let lrts := valueAt s 2
  let lats := if unhealthy then valueAt s 3 else ascii "0"
  let used ← number rc
  let rc ← if 0 < used then do
      let since ← number lrts
      some (if 86400 ≤ host.now - since then ascii "0" else rc)
    else some rc
  some (writeState work name cons rc lrts lats)

def tend (policy : Policy) (host : Host) (work : Work) (name : Name) : Option Work :=
  if name = [] then some work
  else do
    let s := readState work name
    let cons := (← number (valueAt s 0)) + 1
    let rc := valueAt s 1
    let lrts := valueAt s 2
    let lats := valueAt s 3
    if cons < policy.threshold then
      some (writeState work name (decimal cons) rc lrts lats)
    else do
      let used ← number rc
      if policy.maxRestarts ≤ used then do
        let alerted ← number lats
        let lats := if policy.alertCooldown ≤ host.now - alerted then decimal host.now else lats
        some (writeState work name (decimal cons) rc lrts lats)
      else
        let work := { work with restarted := work.restarted ++ [name] }
        if host.restarts name then
          some (writeState work name (ascii "0") (decimal (used + 1)) (decimal host.now) lats)
        else some (writeState work name (decimal cons) rc lrts lats)

def prune (host : Host) (work : Work) (name : Name) : Option Work :=
  if listed (mapfile host.existing) name then some work
  else some { work with files := work.files.erase name }

/-- The whole script. The patterns of its loops are expanded when the loops start. -/
def scan (policy : Policy) (host : Host) (files : AList fun _ : Name => Bytes) : Option Work := do
  let work ← files.keys.foldlM (reset host) ⟨files, []⟩
  let work ← (mapfile host.unhealthy).foldlM (tend policy host) work
  work.files.keys.foldlM (prune host) work

/-! ## Lines -/

def printed (lines : List Bytes) : Bytes := lines.flatMap (· ++ [10])

theorem split_line {line : Bytes} (single : 10 ∉ line) (rest : Bytes) :
    split 10 (line ++ 10 :: rest) = line :: split 10 rest := by
  induction line with
  | nil => simp [split]
  | cons byte others induction =>
      simp only [List.mem_cons, not_or] at single
      rw [List.cons_append, split, if_neg (Ne.symm single.1), induction single.2]

theorem split_printed {lines : List Bytes} (single : ∀ line ∈ lines, 10 ∉ line) :
    split 10 (printed lines) = lines ++ [[]] := by
  induction lines with
  | nil => rfl
  | cons line rest induction =>
      have shape : printed (line :: rest) = line ++ 10 :: printed rest := by simp [printed]
      rw [shape, split_line (single line List.mem_cons_self),
        induction fun other member => single other (List.mem_cons_of_mem _ member)]
      rfl

theorem mapfile_printed {lines : List Bytes} (single : ∀ line ∈ lines, 10 ∉ line) :
    mapfile (printed lines) = lines := by
  simp [mapfile, split_printed single]

/-! ## Well-formed state files -/

/-- Every number is one that the script and the Go program both count with. -/
structure Counted (s : State) : Prop where
  natural : s.Natural
  consecutive : s.consecutive < 2 ^ 53
  restarts : s.restarts < 2 ^ 53
  lastRestart : s.lastRestart < 2 ^ 53
  lastAlert : s.lastAlert < 2 ^ 53

inductive Holds : Bytes → State → Prop
  | three (s : State) (counted : Counted s) (quiet : s.lastAlert = 0) :
      Holds (printed [decimal s.consecutive, decimal s.restarts, decimal s.lastRestart]) s
  | four (s : State) (counted : Counted s) : Holds s.bytes s

theorem bytes_eq (s : State) :
    s.bytes = printed [decimal s.consecutive, decimal s.restarts, decimal s.lastRestart,
      decimal s.lastAlert] := by
  simp [State.bytes, printed]

theorem single_decimal {value : Int} (natural : 0 ≤ value) : 10 ∉ decimal value := by
  intro member
  rw [decimal, if_neg (by omega)] at member
  exact absurd (decimalNat_digits _ _ member) (by decide)

theorem decimal_ne_nil {value : Int} (natural : 0 ≤ value) : decimal value ≠ [] := by
  rw [decimal, if_neg (by omega)]
  exact decimalNat_ne_nil _

theorem number_decimal {value : Int} (natural : 0 ≤ value) (small : value < 2 ^ 63) :
    number (decimal value) = some value := by
  rw [number, parseInt_decimal natural small, Option.bind_some, if_pos rfl]

theorem valueAt_some {lines : List Bytes} {index : Nat} {text : Bytes}
    (there : lines[index]? = some text) (visible : text ≠ []) : valueAt lines index = text := by
  rw [valueAt, there]
  cases text with
  | nil => exact absurd rfl visible
  | cons byte rest => rfl

/-- What the script reads of a well-formed file. -/
theorem Holds.values {content : Bytes} {s : State} (holds : Holds content s) :
    Counted s ∧ valueAt (mapfile content) 0 = decimal s.consecutive ∧
      valueAt (mapfile content) 1 = decimal s.restarts ∧
      valueAt (mapfile content) 2 = decimal s.lastRestart ∧
      valueAt (mapfile content) 3 = decimal s.lastAlert := by
  cases holds with
  | three _ counted quiet =>
      rcases counted.natural with ⟨consecutive, restarts, lastRestart, lastAlert⟩
      have single : ∀ line ∈ [decimal s.consecutive, decimal s.restarts, decimal s.lastRestart],
          10 ∉ line := by
        simp only [List.forall_mem_cons, List.not_mem_nil, false_implies, implies_true, and_true]
        exact ⟨single_decimal consecutive, single_decimal restarts, single_decimal lastRestart⟩
      have zero : ascii "0" = decimal 0 := by decide
      rw [mapfile_printed single, quiet, ← zero]
      exact ⟨counted, valueAt_some rfl (decimal_ne_nil consecutive),
        valueAt_some rfl (decimal_ne_nil restarts), valueAt_some rfl (decimal_ne_nil lastRestart),
        rfl⟩
  | four _ counted =>
      rcases counted.natural with ⟨consecutive, restarts, lastRestart, lastAlert⟩
      have single : ∀ line ∈ [decimal s.consecutive, decimal s.restarts, decimal s.lastRestart,
          decimal s.lastAlert], 10 ∉ line := by
        simp only [List.forall_mem_cons, List.not_mem_nil, false_implies, implies_true, and_true]
        exact ⟨single_decimal consecutive, single_decimal restarts, single_decimal lastRestart,
          single_decimal lastAlert⟩
      rw [bytes_eq, mapfile_printed single]
      exact ⟨counted, valueAt_some rfl (decimal_ne_nil consecutive),
        valueAt_some rfl (decimal_ne_nil restarts), valueAt_some rfl (decimal_ne_nil lastRestart),
        valueAt_some rfl (decimal_ne_nil lastAlert)⟩

theorem counted_zero : Counted .zero :=
  ⟨State.zero_natural, by decide, by decide, by decide, by decide⟩

theorem holds_zero : Holds (ascii "0\n0\n0\n0\n") .zero := by
  have same : ascii "0\n0\n0\n0\n" = State.zero.bytes := by decide
  rw [same]
  exact .four _ counted_zero

theorem Counted.decay {s : State} (counted : Counted s) (unhealthy : Bool) (now : Int) :
    Counted (s.decay unhealthy now) := by
  refine ⟨State.decay_natural counted.natural unhealthy now, ?_, ?_, ?_, ?_⟩
  · rw [State.decay_consecutive]
    split
    · exact counted.consecutive
    · decide
  · rw [State.decay_restarts]
    split
    · decide
    · exact counted.restarts
  · rw [State.decay_lastRestart]
    exact counted.lastRestart
  · rw [State.decay_lastAlert]
    split
    · exact counted.lastAlert
    · decide

/-! ## One container -/

/-- What one pass of a loop does to the state file of its container, and to no other. -/
structure Settles (work : Work) (name : Name) (result : Option Work) (file : Option Bytes)
    (restarted : List Name) : Prop where
  ran : ∃ after, result = some after ∧
    (∀ other, after.file other = if other = name then file else work.file other) ∧
    after.restarted = work.restarted ++ restarted

theorem file_write (work : Work) (name other : Name) (content : Bytes) :
    (work.write name content).file other =
      if other = name then some content else work.file other := by
  rw [Work.file, Work.write]
  by_cases same : other = name
  · subst same
    simp
  · rw [if_neg same, AList.lookup_insert_ne same]
    rfl

theorem settles_write {work : Work} {name : Name} {content : Bytes} :
    Settles work name (some (work.write name content)) (some content) [] :=
  ⟨⟨_, rfl, fun other => file_write work name other content, (List.append_nil _).symm⟩⟩

theorem writeState_bytes (work : Work) (name : Name) (s : State) :
    writeState work name (decimal s.consecutive) (decimal s.restarts) (decimal s.lastRestart)
      (decimal s.lastAlert) = work.write name s.bytes := rfl

theorem reset_settles {host : Host} {work : Work} {name : Name} {content : Bytes} {s : State}
    (stored : work.file name = some content) (holds : Holds content s) :
    Settles work name (reset host work name)
      (some (s.decay (listed (mapfile host.unhealthy) name) host.now).bytes) [] := by
  rcases holds.values with ⟨counted, cons, rc, lrts, lats⟩
  have used := number_decimal counted.natural.restarts (by have := counted.restarts; omega)
  have since := number_decimal counted.natural.lastRestart (by have := counted.lastRestart; omega)
  have zero : ascii "0" = decimal 0 := by decide
  have read : readState work name = mapfile content := by rw [readState, stored, Option.getD_some]
  have result : reset host work name =
      some (work.write name (s.decay (listed (mapfile host.unhealthy) name) host.now).bytes) := by
    rw [← writeState_bytes, State.decay_consecutive, State.decay_restarts,
      State.decay_lastRestart, State.decay_lastAlert]
    simp only [reset, read, cons, rc, lrts, lats, used, since, zero, bind, Option.bind]
    generalize listed (mapfile host.unhealthy) name = unhealthy
    by_cases spent : 0 < s.restarts
    · by_cases old : 86400 ≤ host.now - s.lastRestart
      · cases unhealthy <;> simp [spent, old]
      · cases unhealthy <;> simp [spent, old]
    · cases unhealthy <;> simp [spent]
  rw [result]
  exact settles_write

/-- The state that is left of a container: a restart that worked starts it over. -/
def settled (p : Plan) (now : Int) (restarts : Bool) : State :=
  if p.action = .restart ∧ restarts = true then p.state.restarted now else p.state

theorem settles_restart {work : Work} {name : Name} {content : Bytes} :
    Settles work name
      (some ({ work with restarted := work.restarted ++ [name] }.write name content))
      (some content) [name] :=
  ⟨⟨_, rfl, fun other => file_write _ name other content, rfl⟩⟩

/-- The file of an unhealthy container after both loops. -/
theorem tend_settles {policy : Policy} {host : Host} {work : Work} {name : Name} {s : State}
    (visible : name ≠ [])
    (holds : Holds ((work.file name).getD (ascii "0\n0\n0\n0\n")) (s.decay true host.now)) :
    Settles work name (tend policy host work name)
      (some (settled (s.decide true host.now policy.threshold policy.maxRestarts
        policy.alertCooldown) host.now (host.restarts name)).bytes)
      (if (s.decide true host.now policy.threshold policy.maxRestarts
        policy.alertCooldown).action = .restart then [name] else []) := by
  rcases holds.values with ⟨counted, cons, rc, lrts, lats⟩
  simp only [State.decide, if_true]
  generalize s.decay true host.now = t at *
  have grown := number_decimal counted.natural.consecutive (by have := counted.consecutive; omega)
  have used := number_decimal counted.natural.restarts (by have := counted.restarts; omega)
  have alerted := number_decimal counted.natural.lastAlert (by have := counted.lastAlert; omega)
  have zero : ascii "0" = decimal 0 := by decide
  have ran : tend policy host work name =
      if t.consecutive + 1 < policy.threshold then
        some (work.write name { t with consecutive := t.consecutive + 1 }.bytes)
      else if policy.maxRestarts ≤ t.restarts then
        some (work.write name { t with
          consecutive := t.consecutive + 1,
          lastAlert := if policy.alertCooldown ≤ host.now - t.lastAlert then host.now
            else t.lastAlert }.bytes)
      else if host.restarts name then
        some ({ work with restarted := work.restarted ++ [name] }.write name
          (t.restarted host.now).bytes)
      else
        some ({ work with restarted := work.restarted ++ [name] }.write name
          { t with consecutive := t.consecutive + 1 }.bytes) := by
    unfold tend readState
    rw [if_neg visible]
    simp only [cons, rc, lrts, lats, grown, used, alerted, zero, bind, Option.bind]
    split_ifs <;> rfl
  rw [ran]
  by_cases patient : t.consecutive + 1 < policy.threshold
  · rw [if_pos patient, if_pos patient]
    exact settles_write
  · rw [if_neg patient, if_neg patient]
    by_cases spent : policy.maxRestarts ≤ t.restarts
    · rw [if_pos spent, if_neg (Int.not_lt.mpr spent)]
      by_cases due : policy.alertCooldown ≤ host.now - t.lastAlert
      · rw [if_pos due, if_pos due]
        exact settles_write
      · rw [if_neg due, if_neg due]
        exact settles_write
    · rw [if_neg spent, if_pos (Int.not_le.mp spent)]
      cases restarts : host.restarts name with
      | true => exact settles_restart
      | false => exact settles_restart

theorem prune_settles {host : Host} {work : Work} {name : Name} :
    Settles work name (prune host work name)
      (if listed (mapfile host.existing) name then work.file name else none) [] := by
  rw [prune]
  split
  · refine ⟨⟨_, rfl, fun other => ?_, (List.append_nil _).symm⟩⟩
    split
    · next same => rw [same]
    · rfl
  · refine ⟨⟨_, rfl, fun other => ?_, (List.append_nil _).symm⟩⟩
    by_cases same : other = name
    · subst same
      simp [Work.file]
    · rw [if_neg same, Work.file, AList.lookup_erase_ne same]
      rfl

/-! ## A loop -/

theorem fold_settles {step : Work → Name → Option Work} {next : Name → Option Bytes → Option Bytes}
    {issues : Name → Option Bytes → List Name} {names : List Name} {work : Work}
    (nodup : names.Nodup)
    (each : ∀ name ∈ names, ∀ later : Work, later.file name = work.file name →
      Settles later name (step later name) (next name (work.file name))
        (issues name (work.file name))) :
    ∃ after, names.foldlM step work = some after ∧
      (∀ other, after.file other =
        if other ∈ names then next other (work.file other) else work.file other) ∧
      after.restarted = work.restarted ++
        names.flatMap fun name => issues name (work.file name) := by
  induction names generalizing work with
  | nil => exact ⟨work, rfl, by simp, by simp⟩
  | cons name rest induction =>
      rw [List.nodup_cons] at nodup
      rcases each name List.mem_cons_self work rfl with ⟨middle, ran, file, restarted⟩
      have kept : ∀ other ∈ rest, middle.file other = work.file other := by
        intro other member
        have different : other ≠ name := fun same => nodup.1 (same ▸ member)
        rw [file, if_neg different]
      have later : ∀ other ∈ rest, ∀ later : Work, later.file other = middle.file other →
          Settles later other (step later other) (next other (middle.file other))
            (issues other (middle.file other)) := by
        intro other member later same
        rw [kept other member] at same ⊢
        exact each other (List.mem_cons_of_mem _ member) later same
      rcases induction nodup.2 later with ⟨after, done, files, issued⟩
      refine ⟨after, ?_, fun other => ?_, ?_⟩
      · rw [List.foldlM_cons, ran]
        exact done
      · rw [files]
        by_cases member : other ∈ rest
        · rw [if_pos member, if_pos (List.mem_cons_of_mem _ member), kept other member]
        · rw [if_neg member, file]
          by_cases same : other = name
          · subst same
            simp
          · simp [same, member]
      · rw [issued, restarted, List.flatMap_cons, List.append_assoc]
        congr 2
        exact List.flatMap_congr fun other member => by rw [kept other member]

/-! ## The script -/

theorem listed_eq {names : List Bytes} {name : Name} (visible : name ≠ []) :
    listed names name = decide (name ∈ names) := by
  rw [listed]
  split
  · next empty => simp [empty, visible]
  · rfl

theorem namePattern_visible {name : Name} (valid : namePattern name = true) :
    name ≠ [] ∧ 10 ∉ name := by
  constructor
  · intro empty
    rw [empty] at valid
    cases valid
  · intro member
    exact absurd (namePattern_letters valid 10 member) (by decide)

theorem Counted.storable {s : State} (counted : Counted s) : s.Storable :=
  ⟨counted.natural, Int.le_of_lt counted.consecutive, Int.le_of_lt counted.restarts,
    Int.le_of_lt counted.lastRestart, Int.le_of_lt counted.lastAlert⟩

theorem Holds.parse {content : Bytes} {s : State} (holds : Holds content s) :
    parseState content = .ok s := by
  have storable := holds.values.1.storable
  cases holds with
  | three _ counted quiet =>
      have parts : fields (printed [decimal s.consecutive, decimal s.restarts,
          decimal s.lastRestart]) =
          [decimal s.consecutive, decimal s.restarts, decimal s.lastRestart] := by
        simp only [printed, List.flatMap_cons, List.flatMap_nil, List.append_assoc,
          List.singleton_append]
        rw [fields_decimal_line counted.natural.consecutive,
          fields_decimal_line counted.natural.restarts,
          fields_decimal_line counted.natural.lastRestart]
        rfl
      rw [parseState, parts]
      simp [stateValue_printed counted.natural.consecutive storable.consecutive,
        stateValue_printed counted.natural.restarts storable.restarts,
        stateValue_printed counted.natural.lastRestart storable.lastRestart, ← quiet]
  | four _ _ => exact State.storable_iff.mpr storable

def planOf (policy : Policy) (now : Int) (file : Option Bytes) (unhealthy : Bool) : Plan :=
  (stateOf file).decide unhealthy now policy.threshold policy.maxRestarts policy.alertCooldown

/-- What the script leaves of a container, from its file, its health and its restart. -/
def fileAfter (policy : Policy) (now : Int) (file : Option Bytes) (unhealthy restarts : Bool) :
    Option Bytes :=
  if file.isSome ∨ unhealthy = true then
    some (settled (planOf policy now file unhealthy) now restarts).bytes
  else none

/-- The listings of a host whose names are valid, and its state files. -/
structure Proper (host : Host) (unhealthy existing : List Name)
    (files : AList fun _ : Name => Bytes) : Prop where
  listsUnhealthy : host.unhealthy = printed unhealthy
  listsExisting : host.existing = printed existing
  distinct : unhealthy.Nodup
  listed : ∀ name ∈ unhealthy, name ∈ existing
  valid : ∀ name ∈ existing, namePattern name = true
  named : ∀ name content, files.lookup name = some content → namePattern name = true
  holds : ∀ name content, files.lookup name = some content → ∃ s, Holds content s

section Scan

variable {policy : Policy} {host : Host} {unhealthy existing : List Name}
  {files : AList fun _ : Name => Bytes}

/-- The state file of `name` after the first loop. -/
def fileReset (unhealthy : List Name) (now : Int) (file : Option Bytes) (name : Name) :
    Option Bytes :=
  file.map fun content =>
    ((stateOf (some content)).decay (decide (name ∈ unhealthy)) now).bytes

theorem Proper.lines (proper : Proper host unhealthy existing files) :
    mapfile host.unhealthy = unhealthy ∧ mapfile host.existing = existing := by
  have single : ∀ name ∈ existing, 10 ∉ name := fun name member =>
    (namePattern_visible (proper.valid name member)).2
  constructor
  · rw [proper.listsUnhealthy]
    exact mapfile_printed fun name member => single name (proper.listed name member)
  · rw [proper.listsExisting]
    exact mapfile_printed single

theorem Proper.stateOf_holds (proper : Proper host unhealthy existing files) {name : Name}
    {content : Bytes} (stored : files.lookup name = some content) :
    Holds content (stateOf (some content)) := by
  have ⟨s, holds⟩ := proper.holds name content stored
  rw [stateOf_parsed holds.parse]
  exact holds

theorem reset_all (proper : Proper host unhealthy existing files) :
    ∃ work, files.keys.foldlM (reset host) ⟨files, []⟩ = some work ∧
      (∀ name, work.file name = fileReset unhealthy host.now (files.lookup name) name) ∧
      work.restarted = [] := by
  have each : ∀ name ∈ files.keys, ∀ later : Work,
      later.file name = Work.file ⟨files, []⟩ name →
      Settles later name (reset host later name)
        (fileReset unhealthy host.now (Work.file ⟨files, []⟩ name) name) [] := by
    intro name member later same
    have stored : (files.lookup name).isSome := AList.lookup_isSome.mpr (AList.mem_keys.mpr member)
    have ⟨content, present⟩ := Option.isSome_iff_exists.mp stored
    have found : later.file name = some content := same.trans present
    have settles := @reset_settles host _ _ _ _ found (proper.stateOf_holds present)
    have visible := (namePattern_visible (proper.named name content present)).1
    rw [proper.lines.1, listed_eq visible] at settles
    rw [← same, found]
    exact settles
  have ⟨work, ran, file, restarted⟩ :=
    @fold_settles _ (fun name file => fileReset unhealthy host.now file name) (fun _ _ => [])
      files.keys ⟨files, []⟩ files.keys_nodup each
  have idle : files.keys.flatMap (fun _ => ([] : List Name)) = [] :=
    List.flatMap_eq_nil_iff.mpr fun _ _ => rfl
  rw [idle] at restarted
  refine ⟨work, ran, fun name => ?_, restarted⟩
  rw [file]
  split
  · rfl
  · next absent =>
      have missing : files.lookup name = none :=
        AList.lookup_eq_none.mpr fun member => absent (AList.mem_keys.mp member)
      rw [missing]
      exact missing

/-- What the second loop reads of an unhealthy container. -/
theorem fileReset_holds (proper : Proper host unhealthy existing files) {name : Name}
    (bad : name ∈ unhealthy) :
    Holds ((fileReset unhealthy host.now (files.lookup name) name).getD (ascii "0\n0\n0\n0\n"))
      ((stateOf (files.lookup name)).decay true host.now) := by
  cases stored : files.lookup name with
  | none =>
      have zero : State.zero.decay true host.now = .zero := by simp [State.decay, State.zero]
      rw [fileReset, Option.map_none, Option.getD_none, stateOf, zero]
      exact holds_zero
  | some content =>
      have counted := (proper.stateOf_holds stored).values.1
      rw [fileReset, Option.map_some, Option.getD_some, decide_eq_true bad]
      exact .four _ (counted.decay true host.now)

def fileTended (policy : Policy) (host : Host) (files : AList fun _ : Name => Bytes)
    (name : Name) : Bytes :=
  (settled (planOf policy host.now (files.lookup name) true) host.now (host.restarts name)).bytes

theorem tend_all (proper : Proper host unhealthy existing files) {work : Work}
    (file : ∀ name, work.file name = fileReset unhealthy host.now (files.lookup name) name)
    (fresh : work.restarted = []) :
    ∃ after, unhealthy.foldlM (tend policy host) work = some after ∧
      (∀ name, after.file name =
        if name ∈ unhealthy then some (fileTended policy host files name) else work.file name) ∧
      ∀ name, name ∈ after.restarted ↔ name ∈ unhealthy ∧
        (planOf policy host.now (files.lookup name) true).action = .restart := by
  have each : ∀ name ∈ unhealthy, ∀ later : Work, later.file name = work.file name →
      Settles later name (tend policy host later name)
        (some (fileTended policy host files name))
        (if (planOf policy host.now (files.lookup name) true).action = .restart then [name]
          else []) := by
    intro name member later same
    have visible := (namePattern_visible (proper.valid name (proper.listed name member))).1
    have holds := fileReset_holds proper member
    rw [← file, ← same] at holds
    exact tend_settles visible holds
  have ⟨after, ran, files', restarted⟩ :=
    @fold_settles _ (fun name _ => some (fileTended policy host files name))
      (fun name _ => if (planOf policy host.now (files.lookup name) true).action = .restart
        then [name] else []) unhealthy work proper.distinct each
  refine ⟨after, ran, files', fun name => ?_⟩
  rw [restarted, fresh, List.nil_append, List.mem_flatMap]
  constructor
  · intro ⟨other, member, found⟩
    split at found
    · next restart =>
        cases List.mem_singleton.mp found
        exact ⟨member, restart⟩
    · cases found
  · intro ⟨member, restart⟩
    exact ⟨name, member, by rw [if_pos restart]; exact List.mem_singleton_self name⟩

theorem prune_all {work : Work} :
    ∃ after, work.files.keys.foldlM (prune host) work = some after ∧
      (∀ name, after.file name =
        if listed (mapfile host.existing) name then work.file name else none) ∧
      after.restarted = work.restarted := by
  have each : ∀ name ∈ work.files.keys, ∀ later : Work, later.file name = work.file name →
      Settles later name (prune host later name)
        (if listed (mapfile host.existing) name then work.file name else none) [] := by
    intro name _ later same
    rw [← same]
    exact prune_settles
  have ⟨after, ran, file, restarted⟩ :=
    @fold_settles _ (fun name file => if listed (mapfile host.existing) name then file else none)
      (fun _ _ => []) work.files.keys work work.files.keys_nodup each
  have idle : work.files.keys.flatMap (fun _ => ([] : List Name)) = [] :=
    List.flatMap_eq_nil_iff.mpr fun _ _ => rfl
  rw [idle, List.append_nil] at restarted
  refine ⟨after, ran, fun name => ?_, restarted⟩
  rw [file]
  split
  · rfl
  · next absent =>
      have missing : work.file name = none :=
        AList.lookup_eq_none.mpr fun member => absent (AList.mem_keys.mp member)
      rw [missing, ite_self]

/-- A container that is well only loses its streak. -/
theorem fileAfter_well {now : Int} {file : Option Bytes} {restarts : Bool} :
    fileAfter policy now file false restarts =
      file.map fun content => ((stateOf (some content)).decay false now).bytes := by
  cases file with
  | none => rfl
  | some content => rfl

end Scan

/-- What the script does, container by container. -/
theorem scan_law {policy : Policy} {host : Host} {unhealthy existing : List Name}
    {files : AList fun _ : Name => Bytes} (proper : Proper host unhealthy existing files) :
    ∃ work, scan policy host files = some work ∧
      (∀ name, work.file name =
        if name ∈ existing then
          fileAfter policy host.now (files.lookup name) (decide (name ∈ unhealthy))
            (host.restarts name)
        else none) ∧
      ∀ name, name ∈ work.restarted ↔ name ∈ unhealthy ∧
        (planOf policy host.now (files.lookup name) true).action = .restart := by
  have ⟨first, reset, fileFirst, fresh⟩ := reset_all proper
  have ⟨second, tended, fileSecond, restarted⟩ :=
    @tend_all policy _ _ _ _ proper first fileFirst fresh
  have ⟨last, pruned, fileLast, kept⟩ := @prune_all host second
  refine ⟨last, ?_, fun name => ?_, fun name => kept ▸ restarted name⟩
  · simp only [scan, reset, proper.lines.1, tended, bind, Option.bind]
    exact pruned
  · have file : second.file name =
        if name ∈ unhealthy then some (fileTended policy host files name)
        else fileReset unhealthy host.now (files.lookup name) name := by
      rw [fileSecond, fileFirst]
    -- A file that is there belongs to a valid name.
    have named : second.file name ≠ none → name ≠ [] := by
      intro there
      by_cases bad : name ∈ unhealthy
      · exact (namePattern_visible (proper.valid name (proper.listed name bad))).1
      · rw [file, if_neg bad] at there
        cases stored : files.lookup name with
        | none => exact absurd (by rw [stored]; rfl) there
        | some content => exact (namePattern_visible (proper.named name content stored)).1
    have listing : last.file name = if name ∈ existing then second.file name else none := by
      rw [fileLast, proper.lines.2]
      by_cases there : second.file name = none
      · rw [there, ite_self, ite_self]
      · rw [listed_eq (named there)]
        simp only [decide_eq_true_eq]
    rw [listing]
    split
    · rw [file]
      by_cases bad : name ∈ unhealthy
      · rw [if_pos bad, decide_eq_true bad, fileAfter, if_pos (.inr rfl)]
        rfl
      · rw [if_neg bad, decide_eq_false bad, fileAfter_well, fileReset, decide_eq_false bad]
    · rfl

end Homelab.Watchdog.Legacy
