import Homelab.Foundation.GoJsonNode
import Homelab.Foundation.GoJsonRoundTrip
import Homelab.Watchdog.Execute

/-! # The ledger as a file

`publish` writes the ledger as JSON, and `Execute` reads it back with a bound on its size.
-/

namespace Homelab.Watchdog

open Text GoText GoJson

/-! ## Writing -/

def lineOf (name : Name) : Line := name.map fun byte => Char.ofNat byte.toNat

def flagText (value : Bool) : Line := (if value then "true" else "false").toList

def counterText (counter : UInt64) : Line := decimal counter.toNat

/-- `json.Marshal`. -/
def State.json (s : State) : Line :=
  object [("consecutive", decimal s.consecutive), ("restarts_24h", decimal s.restarts),
    ("last_restart", decimal s.lastRestart), ("last_alert", decimal s.lastAlert)]

def Container.json (c : Container) : Line :=
  object [("state", c.state.json), ("unhealthy", flagText c.unhealthy),
    ("restart_failed", flagText c.restartFailed)]

/-- A map is written in the order of its names. Names that are valid need no escapes. -/
def Result.entries (r : Result) : List (String × Line) :=
  (sortNames r.containers.keys).map fun name => (.ofList (lineOf name), (r.container name).json)

def Result.json (r : Result) : Line :=
  object [("last_run", decimal r.lastRun), ("success", flagText r.success),
    ("docker_read_ok", flagText r.dockerReadOk), ("restart_attempts_total", counterText r.attempts),
    ("restarts_total", counterText r.restarts), ("restart_failures_total", counterText r.failures),
    ("notification_attempts_total", counterText r.notifications),
    ("notification_failures_total", counterText r.notificationFailures),
    ("containers", object r.entries)]

/-- What `publish` puts into `cfg.StateFile`. -/
def Result.text (r : Result) : Line := r.json ++ ['\n']

/-! ## Reading -/

def nameOf (text : Line) : Name := (Utf8.encode text).map fun byte => .ofNat byte.toNat

def readBool (tree : Tree) (current : Bool) : Option Bool :=
  match tree with
  | .null => some current
  | .bool value => some value
  | _ => none

def State.set (s : State) (field : Line × Tree) : Option State :=
  let (name, tree) := field
  if sameName "consecutive" name then
    (readInt tree s.consecutive).map fun value => { s with consecutive := value }
  else if sameName "restarts_24h" name then
    (readInt tree s.restarts).map fun value => { s with restarts := value }
  else if sameName "last_restart" name then
    (readInt tree s.lastRestart).map fun value => { s with lastRestart := value }
  else if sameName "last_alert" name then
    (readInt tree s.lastAlert).map fun value => { s with lastAlert := value }
  else some s

def Container.set (c : Container) (field : Line × Tree) : Option Container :=
  let (name, tree) := field
  if sameName "state" name then
    (readStruct State.set tree c.state).map fun value => { c with state := value }
  else if sameName "unhealthy" name then
    (readBool tree c.unhealthy).map fun value => { c with unhealthy := value }
  else if sameName "restart_failed" name then
    (readBool tree c.restartFailed).map fun value => { c with restartFailed := value }
  else some c

/-- A ledger while it is read. `null` says that `r.Containers` is `nil`. -/
structure Draft where
  ledger : Result
  null : Bool

def addContainer (containers : Containers) (field : Line × Tree) : Option Containers :=
  (readStruct Container.set field.2 .zero).map fun c => containers.insert (nameOf field.1) c

def Draft.setContainers (d : Draft) (tree : Tree) : Option Draft :=
  match tree with
  | .null => some ⟨{ d.ledger with containers := ∅ }, true⟩
  | .dict fields =>
      (fields.foldlM addContainer d.ledger.containers).map fun containers =>
        ⟨{ d.ledger with containers }, false⟩
  | _ => none

def Draft.set (d : Draft) (field : Line × Tree) : Option Draft :=
  let (name, tree) := field
  let r := d.ledger
  if sameName "last_run" name then
    (readInt tree r.lastRun).map fun value => { d with ledger := { r with lastRun := value } }
  else if sameName "success" name then
    (readBool tree r.success).map fun value => { d with ledger := { r with success := value } }
  else if sameName "docker_read_ok" name then
    (readBool tree r.dockerReadOk).map fun value =>
      { d with ledger := { r with dockerReadOk := value } }
  else if sameName "restart_attempts_total" name then
    (readUint tree r.attempts).map fun value => { d with ledger := { r with attempts := value } }
  else if sameName "restarts_total" name then
    (readUint tree r.restarts).map fun value => { d with ledger := { r with restarts := value } }
  else if sameName "restart_failures_total" name then
    (readUint tree r.failures).map fun value => { d with ledger := { r with failures := value } }
  else if sameName "notification_attempts_total" name then
    (readUint tree r.notifications).map fun value =>
      { d with ledger := { r with notifications := value } }
  else if sameName "notification_failures_total" name then
    (readUint tree r.notificationFailures).map fun value =>
      { d with ledger := { r with notificationFailures := value } }
  else if sameName "containers" name then d.setContainers tree
  else some d

/-- `readFile` of a ledger with this content, and the decoding of it. -/
def readLedgerText (content : Line) : LedgerRead :=
  if 2 ^ 20 < content.length then .failed "watchdog: invalid state file"
  else if (trimSpace (runes content)).head? ≠ some '\x7b' then .malformed
  else
    match (parse (runes content)).bind fun tree => readStruct Draft.set tree ⟨.empty, false⟩ with
    | none => .malformed
    | some d => if d.null then .malformed else .decoded d.ledger

/-! ## Names -/

theorem letter_bounds {byte : UInt8}
    (letter : (isAlphanumeric byte || byte = 95 || byte = 46 || byte = 45) = true) :
    35 ≤ byte.toNat ∧ byte.toNat < 128 ∧ byte.toNat ≠ 92 := by
  simp only [isAlphanumeric, ByteText.isDigit, Bool.or_eq_true, Bool.and_eq_true, decide_eq_true_eq,
    UInt8.le_iff_toNat_le, ← UInt8.toNat_inj] at letter
  simp only [UInt8.reduceToNat] at letter
  omega

/-- A valid name is written as it is. -/
theorem lineOf_plain {name : Name} (valid : namePattern name = true) :
    ∀ char ∈ lineOf name, Json.Plain char ∧ char.toNat < 128 := by
  intro char member
  rcases List.mem_map.mp member with ⟨byte, own, rfl⟩
  have bounds := letter_bounds (namePattern_letters valid byte own)
  have code : (Char.ofNat byte.toNat).toNat = byte.toNat := Utf8.toNat_byte byte.toNat_lt
  refine ⟨⟨?_, ?_, by omega⟩, by omega⟩
  · intro same
    rw [same] at code
    have : '"'.toNat = 34 := rfl
    omega
  · intro same
    rw [same] at code
    have : '\\'.toNat = 92 := rfl
    omega

theorem nameOf_lineOf {name : Name} (valid : namePattern name = true) :
    nameOf (lineOf name) = name := by
  have encoded : Utf8.encode (lineOf name) = lineOf name := by
    have each : ∀ char ∈ lineOf name, Utf8.encodeChar char = [char] := by
      intro char member
      rw [Utf8.encodeChar]
      exact if_pos (lineOf_plain valid char member).2
    rw [Utf8.encode, List.flatMap_congr each, List.flatMap_singleton']
  rw [nameOf, encoded, lineOf, List.map_map]
  refine List.map_id'' (fun byte => ?_) name
  rw [Function.comp_apply, Utf8.toNat_byte byte.toNat_lt, UInt8.ofNat_toNat]

/-! ## What is written is read -/

structure State.Typed (s : State) : Prop where
  consecutive : InInt64 s.consecutive
  restarts : InInt64 s.restarts
  lastRestart : InInt64 s.lastRestart
  lastAlert : InInt64 s.lastAlert

def State.tree (s : State) : Tree :=
  .dict [("consecutive".toList, .number (wholeNumeral s.consecutive)),
    ("restarts_24h".toList, .number (wholeNumeral s.restarts)),
    ("last_restart".toList, .number (wholeNumeral s.lastRestart)),
    ("last_alert".toList, .number (wholeNumeral s.lastAlert))]

def Container.tree (c : Container) : Tree :=
  .dict [("state".toList, c.state.tree), ("unhealthy".toList, .bool c.unhealthy),
    ("restart_failed".toList, .bool c.restartFailed)]

theorem reads_flag (depth : Nat) (value : Bool) : Reads depth (flagText value) (.bool value) :=
  reads_bool depth value

theorem State.reads (depth : Nat) (s : State) : Reads (depth + 1) s.json s.tree := by
  let fields : List (String × Line × Tree) :=
    [("consecutive", decimal s.consecutive, .number (wholeNumeral s.consecutive)),
      ("restarts_24h", decimal s.restarts, .number (wholeNumeral s.restarts)),
      ("last_restart", decimal s.lastRestart, .number (wholeNumeral s.lastRestart)),
      ("last_alert", decimal s.lastAlert, .number (wholeNumeral s.lastAlert))]
  have each : ∀ field ∈ fields, (∀ char ∈ field.1.toList, Json.Plain char) ∧
      Reads depth field.2.1 field.2.2 := by
    simp only [fields, List.forall_mem_cons, List.not_mem_nil, false_implies, implies_true,
      and_true]
    exact ⟨⟨by decide, reads_decimal _ _⟩, ⟨by decide, reads_decimal _ _⟩,
      ⟨by decide, reads_decimal _ _⟩, by decide, reads_decimal _ _⟩
  exact reads_fields each

theorem Container.reads (depth : Nat) (c : Container) : Reads (depth + 2) c.json c.tree := by
  let fields : List (String × Line × Tree) :=
    [("state", c.state.json, c.state.tree), ("unhealthy", flagText c.unhealthy, .bool c.unhealthy),
      ("restart_failed", flagText c.restartFailed, .bool c.restartFailed)]
  have each : ∀ field ∈ fields, (∀ char ∈ field.1.toList, Json.Plain char) ∧
      Reads (depth + 1) field.2.1 field.2.2 := by
    simp only [fields, List.forall_mem_cons, List.not_mem_nil, false_implies, implies_true,
      and_true]
    exact ⟨⟨by decide, c.state.reads depth⟩, ⟨by decide, reads_flag _ _⟩, by decide,
      reads_flag _ _⟩
  exact reads_fields each

theorem State.read_tree {s : State} (typed : s.Typed) (current : State) :
    readStruct State.set s.tree current = some s := by
  simp only [readStruct, State.tree, List.foldlM_cons, List.foldlM_nil, State.set, readInt,
    wholeNumeral_int64 typed.consecutive, wholeNumeral_int64 typed.restarts,
    wholeNumeral_int64 typed.lastRestart, wholeNumeral_int64 typed.lastAlert]
  rfl

theorem Container.read_tree {c : Container} (typed : c.state.Typed) :
    readStruct Container.set c.tree .zero = some c := by
  simp only [readStruct.eq_def Container.set, Container.tree, List.foldlM_cons, List.foldlM_nil,
    Container.set, State.read_tree typed, readBool]
  rfl

/-- A ledger that can be read back: its names are valid and its numbers are ones that Go holds. -/
structure Result.Plain (r : Result) : Prop where
  clock : InInt64 r.lastRun
  valid : ∀ name ∈ r.containers, namePattern name = true
  typed : ∀ name ∈ r.containers, (r.container name).state.Typed

def Result.refilled (r : Result) : Containers :=
  (sortNames r.containers.keys).foldl
    (fun containers name => containers.insert name (r.container name)) ∅

theorem Result.mem_sorted {r : Result} {name : Name} :
    name ∈ sortNames r.containers.keys ↔ name ∈ r.containers := by
  rw [sortNames, List.mem_insertionSort, AList.mem_keys]

theorem Result.lookup_refilled (r : Result) (name : Name) :
    r.refilled.lookup name = r.containers.lookup name := by
  rw [Result.refilled, lookup_foldl_insert]
  by_cases listed : name ∈ r.containers
  · have ⟨c, found⟩ := Option.isSome_iff_exists.mp (AList.lookup_isSome.mpr listed)
    rw [if_pos (Result.mem_sorted.mpr listed), Result.container, found]
    rfl
  · rw [if_neg fun member => listed (Result.mem_sorted.mp member),
      AList.lookup_eq_none.mpr listed]
    rfl

def Result.entryTrees (r : Result) : List (Line × Tree) :=
  (sortNames r.containers.keys).map fun name => (lineOf name, (r.container name).tree)

theorem Result.read_entries {r : Result} (plain : r.Plain) :
    r.entryTrees.foldlM addContainer ∅ = some r.refilled := by
  have each (names : List Name) (listed : ∀ name ∈ names, name ∈ r.containers)
      (containers : Containers) :
      (names.map fun name => (lineOf name, (r.container name).tree)).foldlM addContainer
          containers =
        some (names.foldl (fun containers name => containers.insert name (r.container name))
          containers) := by
    induction names generalizing containers with
    | nil => rfl
    | cons name rest induction =>
        have own := listed name List.mem_cons_self
        have added : addContainer containers (lineOf name, (r.container name).tree) =
            some (containers.insert name (r.container name)) := by
          rw [addContainer, Container.read_tree (plain.typed name own), Option.map_some,
            nameOf_lineOf (plain.valid name own)]
        rw [List.map_cons, List.foldlM_cons, added, Option.bind_eq_bind, Option.bind_some,
          induction fun other member => listed other (List.mem_cons_of_mem _ member)]
        rfl
  exact each _ (fun name member => Result.mem_sorted.mp member) ∅

theorem Result.reads_entries {r : Result} (plain : r.Plain) (depth : Nat) :
    Reads (depth + 3) (object r.entries) (.dict r.entryTrees) := by
  let fields : List (String × Line × Tree) := (sortNames r.containers.keys).map fun name =>
    (.ofList (lineOf name), (r.container name).json, (r.container name).tree)
  have each : ∀ field ∈ fields, (∀ char ∈ field.1.toList, Json.Plain char) ∧
      Reads (depth + 2) field.2.1 field.2.2 := by
    intro field member
    rcases List.mem_map.mp member with ⟨name, listed, rfl⟩
    refine ⟨fun char own => ?_, (r.container name).reads depth⟩
    rw [String.toList_ofList] at own
    exact (lineOf_plain (plain.valid name (Result.mem_sorted.mp listed)) char own).1
  have reads := reads_fields each
  simp only [fields, List.map_map, Function.comp_def, String.toList_ofList] at reads
  exact reads

def Result.headTrees (r : Result) : List (Line × Tree) :=
  [("last_run".toList, .number (wholeNumeral r.lastRun)),
    ("success".toList, .bool r.success), ("docker_read_ok".toList, .bool r.dockerReadOk),
    ("restart_attempts_total".toList, .number (wholeNumeral r.attempts.toNat)),
    ("restarts_total".toList, .number (wholeNumeral r.restarts.toNat)),
    ("restart_failures_total".toList, .number (wholeNumeral r.failures.toNat)),
    ("notification_attempts_total".toList, .number (wholeNumeral r.notifications.toNat)),
    ("notification_failures_total".toList, .number (wholeNumeral r.notificationFailures.toNat))]

def Result.tree (r : Result) : Tree :=
  .dict (r.headTrees ++ [("containers".toList, .dict r.entryTrees)])

theorem Result.reads {r : Result} (plain : r.Plain) : Reads maxNestingDepth r.json r.tree := by
  let fields : List (String × Line × Tree) :=
    [("last_run", decimal r.lastRun, .number (wholeNumeral r.lastRun)),
      ("success", flagText r.success, .bool r.success),
      ("docker_read_ok", flagText r.dockerReadOk, .bool r.dockerReadOk),
      ("restart_attempts_total", counterText r.attempts, .number (wholeNumeral r.attempts.toNat)),
      ("restarts_total", counterText r.restarts, .number (wholeNumeral r.restarts.toNat)),
      ("restart_failures_total", counterText r.failures, .number (wholeNumeral r.failures.toNat)),
      ("notification_attempts_total", counterText r.notifications,
        .number (wholeNumeral r.notifications.toNat)),
      ("notification_failures_total", counterText r.notificationFailures,
        .number (wholeNumeral r.notificationFailures.toNat)),
      ("containers", object r.entries, .dict r.entryTrees)]
  have each : ∀ field ∈ fields, (∀ char ∈ field.1.toList, Json.Plain char) ∧
      Reads 9999 field.2.1 field.2.2 := by
    simp only [fields, List.forall_mem_cons, List.not_mem_nil, false_implies, implies_true,
      and_true]
    exact ⟨⟨by decide, reads_decimal _ _⟩, ⟨by decide, reads_flag _ _⟩,
      ⟨by decide, reads_flag _ _⟩, ⟨by decide, reads_decimal _ _⟩, ⟨by decide, reads_decimal _ _⟩,
      ⟨by decide, reads_decimal _ _⟩, ⟨by decide, reads_decimal _ _⟩,
      ⟨by decide, reads_decimal _ _⟩, by decide, Result.reads_entries plain 9996⟩
  exact reads_fields each

theorem Result.read_head {r : Result} (clock : InInt64 r.lastRun) :
    r.headTrees.foldlM Draft.set ⟨.empty, false⟩ = some ⟨{ r with containers := ∅ }, false⟩ := by
  simp only [Result.headTrees, List.foldlM_cons, List.foldlM_nil, Draft.set, readInt, readBool,
    readUint, wholeNumeral_int64 clock, wholeNumeral_uint64]
  rfl

theorem Result.read_tree {r : Result} (plain : r.Plain) :
    readStruct Draft.set r.tree ⟨.empty, false⟩ =
      some ⟨{ r with containers := r.refilled }, false⟩ := by
  have entries (d : Draft) (empty : d.ledger.containers = ∅) :
      d.set ("containers".toList, .dict r.entryTrees) =
        some ⟨{ d.ledger with containers := r.refilled }, false⟩ := by
    have named : d.set ("containers".toList, .dict r.entryTrees) =
        d.setContainers (.dict r.entryTrees) := rfl
    rw [named, Draft.setContainers, empty, Result.read_entries plain]
    rfl
  simp only [readStruct, Result.tree]
  rw [List.foldlM_append, Result.read_head plain.clock, Option.bind_eq_bind, Option.bind_some,
    List.foldlM_cons, entries _ rfl]
  rfl

theorem counterText_ascii (counter : UInt64) : Utf8.Ascii (counterText counter) :=
  decimal_ascii _

theorem flagText_ascii (value : Bool) : Utf8.Ascii (flagText value) := by
  cases value <;> decide

theorem Container.ascii (c : Container) : Utf8.Ascii c.json := by
  have state : Utf8.Ascii c.state.json := by
    apply object_ascii
    simp only [List.forall_mem_cons, List.not_mem_nil, false_implies, implies_true, and_true]
    exact ⟨⟨by decide, decimal_ascii _⟩, ⟨by decide, decimal_ascii _⟩,
      ⟨by decide, decimal_ascii _⟩, by decide, decimal_ascii _⟩
  apply object_ascii
  simp only [List.forall_mem_cons, List.not_mem_nil, false_implies, implies_true, and_true]
  exact ⟨⟨by decide, state⟩, ⟨by decide, flagText_ascii _⟩, by decide, flagText_ascii _⟩

theorem Result.ascii {r : Result} (plain : r.Plain) : Utf8.Ascii r.text := by
  have entries : Utf8.Ascii (object r.entries) := by
    apply object_ascii
    intro field member
    rcases List.mem_map.mp member with ⟨name, listed, rfl⟩
    refine ⟨fun char own => ?_, (r.container name).ascii⟩
    rw [String.toList_ofList] at own
    exact (lineOf_plain (plain.valid name (Result.mem_sorted.mp listed)) char own).2
  have json : Utf8.Ascii r.json := by
    apply object_ascii
    simp only [List.forall_mem_cons, List.not_mem_nil, false_implies, implies_true, and_true]
    exact ⟨⟨by decide, decimal_ascii _⟩, ⟨by decide, flagText_ascii _⟩,
      ⟨by decide, flagText_ascii _⟩, ⟨by decide, counterText_ascii _⟩,
      ⟨by decide, counterText_ascii _⟩, ⟨by decide, counterText_ascii _⟩,
      ⟨by decide, counterText_ascii _⟩, ⟨by decide, counterText_ascii _⟩, by decide, entries⟩
  exact json.append (by decide)

/-- A ledger that fits is read back, its map filled again; one that does not is turned down. -/
theorem readLedgerText_text {r : Result} (plain : r.Plain) :
    readLedgerText r.text =
      if r.text.length ≤ 2 ^ 20 then .decoded { r with containers := r.refilled }
      else .failed "watchdog: invalid state file" := by
  have braced : (trimSpace r.text).head? = some '\x7b' :=
    trimSpace_head (show GoText.isSpace '\x7b' = false by decide) _
  have parsed : parse r.text = some r.tree :=
    parse_of_reads (Result.reads plain) (by decide)
  rw [readLedgerText, runes_ascii (Result.ascii plain), parsed, Option.bind_some,
    Result.read_tree plain]
  by_cases fits : r.text.length ≤ 2 ^ 20
  · rw [if_pos fits, if_neg (by omega), if_neg (not_not.mpr braced)]
    rfl
  · rw [if_neg fits, if_pos (by omega)]

/-! ## What is read is plain -/

theorem State.set_typed (s : State) (field : Line × Tree) (next : State) (typed : s.Typed)
    (read : s.set field = some next) : next.Typed := by
  rcases field with ⟨name, tree⟩
  rcases typed with ⟨consecutive, restarts, lastRestart, lastAlert⟩
  simp only [State.set] at read
  split at read
  · rcases Option.map_eq_some_iff.mp read with ⟨value, own, rfl⟩
    exact ⟨readInt_fits consecutive own, restarts, lastRestart, lastAlert⟩
  split at read
  · rcases Option.map_eq_some_iff.mp read with ⟨value, own, rfl⟩
    exact ⟨consecutive, readInt_fits restarts own, lastRestart, lastAlert⟩
  split at read
  · rcases Option.map_eq_some_iff.mp read with ⟨value, own, rfl⟩
    exact ⟨consecutive, restarts, readInt_fits lastRestart own, lastAlert⟩
  split at read
  · rcases Option.map_eq_some_iff.mp read with ⟨value, own, rfl⟩
    exact ⟨consecutive, restarts, lastRestart, readInt_fits lastAlert own⟩
  · cases read
    exact ⟨consecutive, restarts, lastRestart, lastAlert⟩

theorem Container.set_typed (c : Container) (field : Line × Tree) (next : Container)
    (typed : c.state.Typed) (read : c.set field = some next) : next.state.Typed := by
  rcases field with ⟨name, tree⟩
  simp only [Container.set] at read
  split at read
  · rcases Option.map_eq_some_iff.mp read with ⟨value, own, rfl⟩
    exact readStruct_keeps State.set_typed typed own
  split at read
  · rcases Option.map_eq_some_iff.mp read with ⟨value, own, rfl⟩
    exact typed
  split at read
  · rcases Option.map_eq_some_iff.mp read with ⟨value, own, rfl⟩
    exact typed
  · cases read
    exact typed

theorem State.zero_typed : State.zero.Typed := by
  constructor <;> decide

def Held64 (containers : Containers) : Prop :=
  ∀ name c, containers.lookup name = some c → c.state.Typed

theorem addContainer_held (containers : Containers) (field : Line × Tree) (next : Containers)
    (held : Held64 containers) (read : addContainer containers field = some next) :
    Held64 next := by
  rcases Option.map_eq_some_iff.mp read with ⟨value, own, rfl⟩
  have typed : value.state.Typed :=
    @readStruct_keeps _ (fun c => c.state.Typed) _ Container.set_typed _ _ _ State.zero_typed own
  intro name c found
  by_cases same : name = nameOf field.1
  · rw [same, AList.lookup_insert] at found
    cases found
    exact typed
  · rw [AList.lookup_insert_ne same] at found
    exact held name c found

def Draft.Typed (d : Draft) : Prop := InInt64 d.ledger.lastRun ∧ Held64 d.ledger.containers

theorem Draft.set_typed (d : Draft) (field : Line × Tree) (next : Draft) (typed : d.Typed)
    (read : d.set field = some next) : next.Typed := by
  rcases field with ⟨name, tree⟩
  simp only [Draft.set] at read
  split at read
  · rcases Option.map_eq_some_iff.mp read with ⟨value, own, rfl⟩
    exact ⟨readInt_fits typed.1 own, typed.2⟩
  iterate 7
    split at read
    · rcases Option.map_eq_some_iff.mp read with ⟨value, own, rfl⟩
      exact typed
  split at read
  · cases tree with
    | null =>
        cases read
        exact ⟨typed.1, fun _ _ found => nomatch found⟩
    | dict fields =>
        rcases Option.map_eq_some_iff.mp read with ⟨value, own, rfl⟩
        exact ⟨typed.1, foldlM_keeps addContainer_held typed.2 own⟩
    | _ => cases read
  · cases read
    exact typed

theorem readLedgerText_typed {content : Line} {r : Result}
    (read : readLedgerText content = .decoded r) :
    InInt64 r.lastRun ∧ Held64 r.containers := by
  simp only [readLedgerText] at read
  split at read
  · cases read
  · split at read
    · cases read
    · split at read
      · cases read
      · next d decoded =>
          rcases Option.bind_eq_some_iff.mp decoded with ⟨tree, _, filled⟩
          split at read
          · cases read
          · cases read
            have start : Draft.Typed ⟨.empty, false⟩ :=
              ⟨by decide, fun _ _ found => nomatch found⟩
            exact readStruct_keeps Draft.set_typed start filled

/-- The text of the ledger is accepted by the next scan, and holds this ledger. -/
def Result.TakenBack (r : Result) : Prop :=
  ∃ back, readLedgerText r.text = .decoded back ∧ acceptLedger (.decoded back) = .ok back ∧
    { back with containers := r.containers } = r ∧
    ∀ name, back.containers.lookup name = r.containers.lookup name

theorem acceptLedger_decoded {r back : Result} :
    acceptLedger (.decoded r) = .ok back ↔
      back = r ∧ 1 ≤ r.lastRun ∧ ∀ name ∈ r.containers, namePattern name = true := by
  simp only [acceptLedger]
  split
  · next early =>
      constructor
      · exact fun impossible => nomatch impossible
      · intro ⟨_, late, _⟩
        omega
  · next late =>
      split
      · next valid =>
          rw [List.all_eq_true] at valid
          constructor
          · intro same
            cases same
            exact ⟨rfl, by omega, fun name member => valid name (AList.mem_keys.mp member)⟩
          · intro ⟨same, _⟩
            rw [same]
      · next invalid =>
          constructor
          · exact fun impossible => nomatch impossible
          · intro ⟨_, _, valid⟩
            exact absurd (List.all_eq_true.mpr fun name member =>
              valid name (AList.mem_keys.mpr member)) invalid

/-- The next scan accepts a ledger exactly if it is plain and not too long. -/
theorem takenBack_iff {r : Result} :
    r.TakenBack ↔ 1 ≤ r.lastRun ∧ r.Plain ∧ r.text.length ≤ 2 ^ 20 := by
  constructor
  · rintro ⟨back, read, accepted, same, lookup⟩
    rcases readLedgerText_typed read with ⟨clock, held⟩
    rcases acceptLedger_decoded.mp accepted with ⟨_, late, valid⟩
    have lastRun : back.lastRun = r.lastRun := by rw [← same]
    have member (name : Name) : name ∈ back.containers ↔ name ∈ r.containers := by
      rw [← AList.lookup_isSome, ← AList.lookup_isSome, lookup]
    have short : r.text.length ≤ 2 ^ 20 := by
      by_contra long
      rw [readLedgerText, if_pos (by omega)] at read
      cases read
    refine ⟨lastRun ▸ late, ⟨lastRun ▸ clock, fun name listed => ?_, fun name listed => ?_⟩, short⟩
    · exact valid name ((member name).mpr listed)
    · rcases Option.isSome_iff_exists.mp (AList.lookup_isSome.mpr listed) with ⟨c, found⟩
      rw [Result.container, found]
      exact held name c ((lookup name).trans found)
  · rintro ⟨late, plain, short⟩
    refine ⟨{ r with containers := r.refilled }, ?_, ?_, rfl, r.lookup_refilled⟩
    · rw [readLedgerText_text plain, if_pos short]
    · refine acceptLedger_decoded.mpr ⟨rfl, late, fun name listed => plain.valid name ?_⟩
      rw [← AList.lookup_isSome] at listed ⊢
      rw [← r.lookup_refilled]
      exact listed

end Homelab.Watchdog
