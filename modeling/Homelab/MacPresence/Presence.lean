import Homelab.Foundation.GoJsonRoundTrip

/-! # Presence of the Mac worker

What one run of the collector makes of the stored state and a probe.
-/

namespace Homelab.MacPresence

open Text GoText GoJson

structure State where
  lastSeen : Int
  reachableSince : Int
  consecutiveFailures : Int
  lastProbe : Int
  reachable : Bool
deriving DecidableEq

def State.fresh : State := ⟨0, 0, 0, 0, false⟩

/-! ## Reading -/

def readBool (tree : Tree) (current : Bool) : Option Bool :=
  match tree with
  | .null => some current
  | .bool value => some value
  | _ => none

def State.set (s : State) (field : Line × Tree) : Option State :=
  let (name, tree) := field
  if sameName "last_seen" name then
    (readInt tree s.lastSeen).map fun value => { s with lastSeen := value }
  else if sameName "reachable_since" name then
    (readInt tree s.reachableSince).map fun value => { s with reachableSince := value }
  else if sameName "consecutive_failures" name then
    (readInt tree s.consecutiveFailures).map fun value => { s with consecutiveFailures := value }
  else if sameName "last_probe" name then
    (readInt tree s.lastProbe).map fun value => { s with lastProbe := value }
  else if sameName "reachable" name then
    (readBool tree s.reachable).map fun value => { s with reachable := value }
  else none

def decode : Tree → Option State
  | .null => some .fresh
  | .dict fields => fields.foldlM State.set .fresh
  | _ => none

def State.consistent (s : State) : Bool :=
  0 ≤ s.lastSeen && 0 ≤ s.reachableSince && 0 ≤ s.lastProbe && 0 ≤ s.consecutiveFailures &&
    s.reachable = decide (0 < s.reachableSince)

/-- `LoadState`: the state, and whether the data were accepted. -/
def loadState (data : Line) : State × Bool :=
  if trimSpace (runes data) = [] then (.fresh, true)
  else
    match (parse (runes data)).bind decode with
    | none => (.fresh, false)
    | some s => if s.consistent then (s, true) else (.fresh, false)

/-! ## Deciding -/

/-- `Decide`, where a run of failures may leave the range of an `int`. -/
def State.decide (prev : State) (present : Bool) (now threshold : Int) : State :=
  let s := { prev with lastProbe := now }
  if present then
    let s := { s with consecutiveFailures := 0, lastSeen := now }
    if s.reachable then s else { s with reachable := true, reachableSince := now }
  else
    let s := { s with consecutiveFailures := wrap (s.consecutiveFailures + 1) }
    if max threshold 1 ≤ s.consecutiveFailures then
      { s with reachable := false, reachableSince := 0 }
    else s

/-! ## Writing -/

def marshal (s : State) : Line :=
  object [("last_seen", decimal s.lastSeen), ("reachable_since", decimal s.reachableSince),
    ("consecutive_failures", decimal s.consecutiveFailures), ("last_probe", decimal s.lastProbe),
    ("reachable", (if s.reachable then "true" else "false").toList)]

def gauge (name help : String) (value : Int) : Line :=
  "# HELP ".toList ++ name.toList ++ [' '] ++ help.toList ++ "\n# TYPE ".toList ++ name.toList ++
    " gauge\n".toList ++ name.toList ++ [' '] ++ decimal value ++ ['\n']

def boolInt (value : Bool) : Int := if value then 1 else 0

def render (s : State) (valid : Bool) : Line :=
  gauge "mac_worker_reachable" "1 if the Mac worker answered on the LAN (debounced), else 0."
      (boolInt s.reachable) ++
    gauge "mac_worker_last_seen_timestamp_seconds" "Unix time the Mac worker last answered a probe."
      s.lastSeen ++
    gauge "mac_worker_reachable_since_timestamp_seconds"
      "Start of the current reachable streak; 0 while away." s.reachableSince ++
    gauge "mac_worker_probe_timestamp_seconds"
      "Unix time of the last presence probe (collector liveness)." s.lastProbe ++
    gauge "mac_worker_state_valid" "0 if persisted presence state was corrupt and had to be reset."
      (boolInt valid)

inductive StateRead
  | notExist
  | failed
  | data (content : Line)

def StateRead.raw : StateRead → Line
  | .notExist => []
  | .failed => "unreadable".toList
  | .data content => content

structure Published where
  stateFile : Line
  textfile : Line

/-- `Run`, from the file and the probe to the two files it writes. -/
def run (read : StateRead) (present : Bool) (now threshold : Int) : Published :=
  let (prev, valid) := loadState read.raw
  let next := prev.decide present now threshold
  ⟨marshal next ++ ['\n'], render next valid⟩

/-! ## What is written is read -/

structure State.Fits (s : State) : Prop where
  lastSeen : InInt64 s.lastSeen
  reachableSince : InInt64 s.reachableSince
  consecutiveFailures : InInt64 s.consecutiveFailures
  lastProbe : InInt64 s.lastProbe

def State.tree (s : State) : List (Line × Tree) :=
  [("last_seen".toList, .number (wholeNumeral s.lastSeen)),
    ("reachable_since".toList, .number (wholeNumeral s.reachableSince)),
    ("consecutive_failures".toList, .number (wholeNumeral s.consecutiveFailures)),
    ("last_probe".toList, .number (wholeNumeral s.lastProbe)),
    ("reachable".toList, .bool s.reachable)]

theorem reads_marshal (s : State) : Reads maxNestingDepth (marshal s) (.dict s.tree) := by
  let fields : List (String × Line × Tree) :=
    [("last_seen", decimal s.lastSeen, .number (wholeNumeral s.lastSeen)),
      ("reachable_since", decimal s.reachableSince, .number (wholeNumeral s.reachableSince)),
      ("consecutive_failures", decimal s.consecutiveFailures,
        .number (wholeNumeral s.consecutiveFailures)),
      ("last_probe", decimal s.lastProbe, .number (wholeNumeral s.lastProbe)),
      ("reachable", (if s.reachable then "true" else "false").toList, .bool s.reachable)]
  have each : ∀ field ∈ fields, (∀ char ∈ field.1.toList, Json.Plain char) ∧
      Reads 9999 field.2.1 field.2.2 := by
    simp only [fields, List.forall_mem_cons, List.not_mem_nil, false_implies, implies_true,
      and_true]
    exact ⟨⟨by decide, reads_decimal _ _⟩, ⟨by decide, reads_decimal _ _⟩,
      ⟨by decide, reads_decimal _ _⟩, ⟨by decide, reads_decimal _ _⟩, by decide, reads_bool _ _⟩
  exact reads_object (by simp [fields]) each

theorem decode_tree {s : State} (fits : s.Fits) : decode (.dict s.tree) = some s := by
  simp only [decode, State.tree, List.foldlM_cons, List.foldlM_nil, State.set, readInt,
    wholeNumeral_int64 fits.lastSeen, wholeNumeral_int64 fits.reachableSince,
    wholeNumeral_int64 fits.consecutiveFailures, wholeNumeral_int64 fits.lastProbe, readBool]
  rfl

theorem marshal_ascii (s : State) : Utf8.Ascii (marshal s) := by
  have flag : Utf8.Ascii (if s.reachable then "true" else "false").toList := by
    cases s.reachable <;> decide
  apply object_ascii
  simp only [List.forall_mem_cons, List.not_mem_nil, false_implies, implies_true, and_true]
  exact ⟨⟨by decide, decimal_ascii _⟩, ⟨by decide, decimal_ascii _⟩, ⟨by decide, decimal_ascii _⟩,
    ⟨by decide, decimal_ascii _⟩, by decide, flag⟩

/-- A consistent state that is written is loaded again. -/
theorem loadState_written {s : State} (fits : s.Fits) (consistent : s.consistent = true) :
    loadState (marshal s ++ ['\n']) = (s, true) := by
  have ascii : Utf8.Ascii (marshal s ++ ['\n']) := (marshal_ascii s).append (by decide)
  have visible : trimSpace (marshal s ++ ['\n']) ≠ [] :=
    trimSpace_ne_nil (show '\x7b' ∈ marshal s ++ ['\n'] by simp [marshal, object]) (by decide)
  rw [loadState, runes_ascii ascii, if_neg visible,
    parse_of_reads (reads_marshal s) (by decide), Option.bind_some, decode_tree fits]
  simp only [consistent]
  rfl

end Homelab.MacPresence
