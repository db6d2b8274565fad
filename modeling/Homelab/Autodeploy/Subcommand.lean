import Homelab.Foundation.ByteText
import Homelab.Foundation.Text
import Mathlib.Data.List.AList

/-! # The subcommands on any state file

What the subcommands do with whatever bytes are in the state file, down to the
exception they end in. Strings are sequences of code points here, since JSON and
the command line can hold halves of surrogate pairs.
-/

namespace Homelab.Autodeploy.Subcommand

/-- The exceptions that reading, converting and printing can raise. -/
inductive Raised
  | osError
  | jsonDecode
  | unicodeDecode
  | unicodeEncode
  | typeError
  | valueError
  | overflow
  | recursion
deriving DecidableEq

inductive PyChar
  | scalar (char : Char)
  | half (code : Nat)
deriving DecidableEq

abbrev PyStr := List PyChar

def literal (text : String) : PyStr := text.toList.map .scalar

def PyChar.isSpace : PyChar → Bool
  | .scalar char => Text.isSpace char
  | .half _ => false

/-- `text.strip()`. -/
def strip (text : PyStr) : PyStr :=
  (text.dropWhile PyChar.isSpace).rdropWhile PyChar.isSpace

/-! ## Values -/

/-- A finite float is known by what `int()` and `str()` make of it. -/
inductive PyFloat
  | nan
  | infinite (negative : Bool)
  | finite (truncated : Int) (printed : PyStr)
deriving DecidableEq

/-- A value of the JSON state. A container is a list or an object: what `str()`
prints for it, `none` where it is nested too deep, and whether `json.dumps` can
write it. -/
inductive Value
  | null
  | bool (value : Bool)
  | int (value : Int)
  | float (value : PyFloat)
  | str (text : PyStr)
  | container (printed : Option PyStr) (writable : Bool)
deriving DecidableEq

abbrev Dict := AList fun _ : PyStr => Value

/-- `state.get(key, default)`. -/
def Dict.get (state : Dict) (key : String) (default : Value) : Value :=
  (state.lookup (literal key)).getD default

/-- What `json.load` returns. -/
inductive Loaded
  | object (state : Dict)
  | other

/-- What of Python is left open: the JSON decoder, `int()` of a string, how long an
integer may be to be printed, and what standard output can encode. -/
structure Python where
  loads : String → Except Raised Loaded
  int : PyStr → Option Int
  prints : Int → Bool
  encodes : PyChar → Bool
  int_prints : ∀ text value, int text = some value → prints value = true
  zero_prints : prints 0 = true
  encodes_scalar : ∀ char, encodes (.scalar char) = true

/-! ## The module -/

section

variable (python : Python)

/-- `open(path)` and `json.load(fh)`, on the bytes of the file if it can be opened. -/
def read : Option Bytes → Except Raised Loaded
  | none => .error .osError
  | some bytes =>
      match String.fromUTF8? ⟨bytes.toArray⟩ with
      | none => .error .unicodeDecode
      | some text => python.loads text

def load (file : Option Bytes) : Except Raised Dict :=
  match read python file with
  | .ok (.object state) => .ok state
  | .ok .other => .ok ∅
  | .error .osError => .ok ∅
  | .error .jsonDecode => .ok ∅
  | .error raised => .error raised

def needsDeploy (state : Dict) (originHead : PyStr) : Bool :=
  let head := strip originHead
  if head = [] then false
  else if state.lookup (literal "failed_sha") = some (.str head) then false
  else state.lookup (literal "seen_sha") ≠ some (.str head)

def onAttempt (state : Dict) (sha : PyStr) : Dict :=
  state.insert (literal "seen_sha") (.str (strip sha))

def onSuccess (state : Dict) (sha : PyStr) (now : Int) : Dict :=
  let s := state.insert (literal "last_good_sha") (.str sha)
  let s := s.insert (literal "last_deploy_sha") (.str sha)
  let s := s.insert (literal "last_deploy_ts") (.int now)
  let s := s.insert (literal "last_deploy_result") (.str (literal "ok"))
  s.insert (literal "failed_sha") (.str [])

/-- `int(value)`. -/
def toInt : Value → Except Raised Int
  | .null => .error .typeError
  | .bool value => .ok (if value then 1 else 0)
  | .int value => .ok value
  | .float .nan => .error .valueError
  | .float (.infinite _) => .error .overflow
  | .float (.finite truncated _) => .ok truncated
  | .str text =>
      match python.int text with
      | some value => .ok value
      | none => .error .valueError
  | .container _ _ => .error .typeError

def onFail (state : Dict) (sha : PyStr) (now : Int) : Except Raised Dict := do
  let count ← toInt python (Dict.get state "fail_count" (.int 0))
  let s := state.insert (literal "failed_sha") (.str sha)
  let s := s.insert (literal "last_deploy_sha") (.str sha)
  let s := s.insert (literal "last_deploy_ts") (.int now)
  let s := s.insert (literal "last_deploy_result") (.str (literal "rolled_back"))
  pure (s.insert (literal "fail_count") (.int (count + 1)))

def num (value : Value) : Except Raised Int :=
  match toInt python value with
  | .error .typeError => .ok 0
  | .error .valueError => .ok 0
  | result => result

/-- `str(value)` of an integer, which raises if it is too long. -/
def intText (value : Int) : Except Raised PyStr :=
  if python.prints value then .ok (literal (toString value)) else .error .valueError

/-- `str(value)`. -/
def text : Value → Except Raised PyStr
  | .null => .ok (literal "None")
  | .bool value => .ok (literal (if value then "True" else "False"))
  | .int value => intText python value
  | .float .nan => .ok (literal "nan")
  | .float (.infinite negative) => .ok (literal (if negative then "-inf" else "inf"))
  | .float (.finite _ printed) => .ok printed
  | .str text => .ok text
  | .container (some printed) _ => .ok printed
  | .container none _ => .error .recursion

/-- The gauges of `render_metrics`, in their order, as they are printed. -/
structure Samples where
  lastRunUnixSeconds : PyStr
  lastRunSuccess : Bool
  lastDeployUnixSeconds : PyStr
  failTotal : PyStr
  lastResultRolledBack : Bool
  held : Bool
  lastGood : PyStr

def lastGoodLabel (printed : PyStr) : PyStr :=
  let sha := (printed.filter (· ≠ .scalar '"')).take 12
  if sha = [] then literal "none" else sha

def renderMetrics (state : Dict) (now lastRunOk : Int) : Except Raised Samples := do
  let result := Dict.get state "last_deploy_result" (.str (literal "none"))
  let lastRun ← intText python now
  let lastDeploy ← intText python (← num python (Dict.get state "last_deploy_ts" .null))
  let fails ← intText python (← num python (Dict.get state "fail_count" .null))
  let failedSha ← text python (Dict.get state "failed_sha" (.str []))
  let lastGood ← text python (Dict.get state "last_good_sha" (.str (literal "none")))
  pure ⟨lastRun, decide (lastRunOk ≠ 0), lastDeploy, fails,
    decide (result = .str (literal "rolled_back")), decide (strip failedSha ≠ []),
    lastGoodLabel lastGood⟩

/-- What `json.dumps` does with one value. -/
def writes : Value → Except Raised Unit
  | .int value => (intText python value).map fun _ => ()
  | .container _ writable => if writable then .ok () else .error .recursion
  | _ => .ok ()

/-- `sys.stdout.write(json.dumps(state, indent=2) + "\n")`: the output is ASCII. -/
def printState (state : Dict) : Except Raised Dict := do
  state.entries.forM fun entry => writes python entry.2
  pure state

/-- `sys.stdout.write`: of the samples only the label can hold any character. -/
def printSamples (samples : Samples) : Except Raised Samples :=
  if samples.lastGood.all python.encodes then .ok samples else .error .unicodeEncode

inductive Command
  | needsDeploy (sha : PyStr)
  | onAttempt (sha : PyStr)
  | onSuccess (sha now : PyStr)
  | onFail (sha now : PyStr)
  | metrics (now lastRunOk : PyStr)

inductive Output
  | exit (status : Nat)
  | state (printed : Dict)
  | samples (printed : Samples)

def main (file : Option Bytes) : Command → Except Raised Output
  | .needsDeploy sha => do
      let state ← load python file
      pure (.exit (if needsDeploy state sha then 0 else 1))
  | .onAttempt sha => do
      let state ← load python file
      .state <$> printState python (Subcommand.onAttempt state sha)
  | .onSuccess sha now => do
      let state ← load python file
      .state <$> printState python (Subcommand.onSuccess state sha (← num python (.str now)))
  | .onFail sha now => do
      let state ← load python file
      .state <$> printState python (← Subcommand.onFail python state sha (← num python (.str now)))
  | .metrics now lastRunOk => do
      let state ← load python file
      .samples <$> printSamples python (← renderMetrics python state
        (← num python (.str now)) (← num python (.str lastRunOk)))

def status : Except Raised Output → Nat
  | .ok (.exit code) => code
  | .ok _ => 0
  | .error _ => 1

/-! ## Robustness -/

def parsed (file : Option Bytes) : Dict :=
  match read python file with
  | .ok (.object state) => state
  | _ => ∅

/-- The state names the commit as attempted or failed, or there is none. -/
def Handled (state : Dict) (sha : PyStr) : Prop :=
  strip sha = [] ∨ state.lookup (literal "failed_sha") = some (.str (strip sha)) ∨
    state.lookup (literal "seen_sha") = some (.str (strip sha))

/-- The updates, and every other field of the state as it is. -/
def Carries (printed : Dict) (updates : List (PyStr × Value)) (state : Dict) : Prop :=
  ∀ key, printed.lookup key = (updates.lookup key <|> state.lookup key)

structure Robust (file : Option Bytes) : Prop where
  needs : ∀ sha, (status (main python file (.needsDeploy sha)) = 1 ↔
    Handled (parsed python file) sha) ∧
      ∃ code, main python file (.needsDeploy sha) = .ok (.exit code)
  attempt : ∀ sha, ∃ printed, main python file (.onAttempt sha) = .ok (.state printed) ∧
    Carries printed [(literal "seen_sha", .str (strip sha))] (parsed python file)
  success : ∀ sha now, ∃ printed stamp,
    main python file (.onSuccess sha now) = .ok (.state printed) ∧
      num python (.str now) = .ok stamp ∧
      Carries printed [(literal "failed_sha", .str []),
        (literal "last_deploy_result", .str (literal "ok")),
        (literal "last_deploy_ts", .int stamp), (literal "last_deploy_sha", .str sha),
        (literal "last_good_sha", .str sha)] (parsed python file)
  fail : ∀ sha now, ∃ printed stamp count,
    main python file (.onFail sha now) = .ok (.state printed) ∧
      num python (.str now) = .ok stamp ∧
      toInt python (Dict.get (parsed python file) "fail_count" (.int 0)) = .ok count ∧
      Carries printed [(literal "fail_count", .int (count + 1)),
        (literal "last_deploy_result", .str (literal "rolled_back")),
        (literal "last_deploy_ts", .int stamp), (literal "last_deploy_sha", .str sha),
        (literal "failed_sha", .str sha)] (parsed python file)
  metrics : ∀ now lastRunOk, ∃ samples,
    main python file (.metrics now lastRunOk) = .ok (.samples samples)

/-- Where the subcommands are robust: the bytes are UTF-8 and decoding raises
nothing but `JSONDecodeError`; `fail_count` is a number and its successor can be
printed; the gauges are no infinity and can be printed; and everything else in the
state can be printed again. -/
structure Sound (file : Option Bytes) : Prop where
  readable : ∀ raised, read python file = .error raised →
    raised = .osError ∨ raised = .jsonDecode
  writable : ∀ key value, (parsed python file).lookup key = some value →
    writes python value = .ok ()
  counts : ∃ count, toInt python (Dict.get (parsed python file) "fail_count" (.int 0)) =
    .ok count ∧ python.prints (count + 1) = true
  gauges : ∀ key ∈ ["last_deploy_ts", "fail_count"],
    let value := Dict.get (parsed python file) key .null
    toInt python value ≠ .error .overflow ∧
      ∀ gauge, toInt python value = .ok gauge → python.prints gauge = true
  failed : ∃ printed,
    text python (Dict.get (parsed python file) "failed_sha" (.str [])) = .ok printed
  label : ∃ printed, text python (Dict.get (parsed python file) "last_good_sha"
      (.str (literal "none"))) = .ok printed ∧
    ∀ char ∈ lastGoodLabel printed, python.encodes char = true

end

section

variable {python : Python} {file : Option Bytes} {state printed : Dict} {sha : PyStr}

/-! ## Reading -/

theorem load_readable (readable : ∀ raised, read python file = .error raised →
    raised = .osError ∨ raised = .jsonDecode) :
    load python file = .ok (parsed python file) := by
  unfold load parsed
  cases result : read python file with
  | ok loaded => cases loaded <;> rfl
  | error raised => rcases readable raised result with rfl | rfl <;> rfl

theorem readable_of_load (loaded : load python file = .ok state) :
    ∀ raised, read python file = .error raised →
      raised = .osError ∨ raised = .jsonDecode := by
  intro raised failed
  rw [load, failed] at loaded
  cases raised <;> first | exact .inl rfl | exact .inr rfl | cases loaded

theorem needsDeploy_eq_false : needsDeploy state sha = false ↔ Handled state sha := by
  unfold needsDeploy Handled
  dsimp only
  split
  · next blank => simp [blank]
  · next present =>
      split
      · next failed => simp [failed]
      · next fresh => simp [present, fresh]

/-! ## Printing a state -/

theorem forM_eq_ok {α ε : Type} {list : List α} {each : α → Except ε Unit} :
    list.forM each = .ok () ↔ ∀ item ∈ list, each item = .ok () := by
  induction list with
  | nil => exact ⟨fun _ _ member => absurd member List.not_mem_nil, fun _ => rfl⟩
  | cons item rest induction =>
      change (do each item; rest.forM each) = Except.ok () ↔ _
      rw [List.forall_mem_cons, ← induction]
      cases each item with
      | ok _ => exact ⟨fun holds => ⟨rfl, holds⟩, fun holds => holds.2⟩
      | error raised => exact ⟨nofun, fun holds => nomatch holds.1⟩

theorem printState_ok : printState python state = .ok printed ↔
    printed = state ∧ ∀ key value, state.lookup key = some value →
      writes python value = .ok () := by
  have entries : (∀ entry ∈ state.entries, writes python entry.2 = .ok ()) ↔
      ∀ key value, state.lookup key = some value → writes python value = .ok () := by
    constructor
    · intro all key value found
      exact all ⟨key, value⟩ (AList.mem_lookup_iff.mp found)
    · intro all ⟨key, value⟩ member
      exact all key value (AList.mem_lookup_iff.mpr member)
  rw [← entries, ← forM_eq_ok, printState]
  cases state.entries.forM fun entry => writes python entry.2 with
  | ok _ => exact ⟨fun same => ⟨(Except.ok.inj same).symm, rfl⟩, fun ⟨same, _⟩ => same ▸ rfl⟩
  | error raised => exact ⟨nofun, fun ⟨_, impossible⟩ => nomatch impossible⟩

/-- A state that can be printed still can after an update that can. -/
theorem writable_insert {name : PyStr} {update : Value}
    (now : writes python update = .ok ())
    (before : ∀ key value, state.lookup key = some value → writes python value = .ok ()) :
    ∀ key value, (state.insert name update).lookup key = some value →
      writes python value = .ok () := by
  intro key value found
  rcases eq_or_ne key name with same | other
  · rw [same, AList.lookup_insert] at found
    rw [← Option.some.inj found]
    exact now
  · rw [AList.lookup_insert_ne other] at found
    exact before key value found

theorem writes_int {value : Int} :
    writes python (.int value) = .ok () ↔ python.prints value = true := by
  change (intText python value).map _ = _ ↔ _
  unfold intText
  split
  · next printable => exact ⟨fun _ => printable, fun _ => rfl⟩
  · next long => exact ⟨nofun, fun printable => absurd printable long⟩

theorem num_str (python : Python) (text : PyStr) :
    ∃ value, num python (.str text) = .ok value ∧ python.prints value = true := by
  cases found : python.int text with
  | some value => exact ⟨value, by simp [num, toInt, found], python.int_prints _ _ found⟩
  | none => exact ⟨0, by simp [num, toInt, found], python.zero_prints⟩

theorem Carries.insert {updates : List (PyStr × Value)} {name : PyStr} {value : Value}
    (carries : Carries printed updates state) :
    Carries (printed.insert name value) ((name, value) :: updates) state := by
  intro key
  rcases eq_or_ne key name with same | other
  · rw [same, AList.lookup_insert]
    simp
  · rw [AList.lookup_insert_ne other, carries key, List.lookup_cons,
      beq_false_of_ne other]

theorem carries_nil : Carries state [] state := by
  intro key
  simp

/-! ## Sequences that may raise -/

theorem bind_eq_ok {α β ε : Type} {first : Except ε α} {next : α → Except ε β}
    {result : β} : (first >>= next) = .ok result ↔
      ∃ value, first = .ok value ∧ next value = .ok result := by
  cases first with
  | ok value => exact ⟨fun holds => ⟨value, rfl, holds⟩, fun ⟨_, same, holds⟩ => by
      cases same
      exact holds⟩
  | error raised => exact ⟨nofun, fun ⟨_, impossible, _⟩ => nomatch impossible⟩

theorem map_eq_ok {α β ε : Type} {first : Except ε α} {f : α → β} {result : β} :
    f <$> first = .ok result ↔ ∃ value, first = .ok value ∧ f value = result := by
  cases first with
  | ok value => exact ⟨fun holds => ⟨value, rfl, Except.ok.inj holds⟩, fun ⟨_, same, holds⟩ => by
      cases same
      exact congrArg Except.ok holds⟩
  | error raised => exact ⟨nofun, fun ⟨_, impossible, _⟩ => nomatch impossible⟩

/-! ## The gauges -/

/-- What makes a gauge printable. -/
def Gauged (python : Python) (value : Value) : Prop :=
  toInt python value ≠ .error .overflow ∧
    ∀ gauge, toInt python value = .ok gauge → python.prints gauge = true

theorem intText_ok {value : Int} : (∃ printed, intText python value = .ok printed) ↔
    python.prints value = true := by
  unfold intText
  split
  · next printable => exact ⟨fun _ => printable, fun _ => ⟨_, rfl⟩⟩
  · next long => exact ⟨nofun, fun printable => absurd printable long⟩

theorem toInt_raises {value : Value} {raised : Raised}
    (failed : toInt python value = .error raised) :
    raised = .typeError ∨ raised = .valueError ∨ raised = .overflow := by
  unfold toInt at failed
  split at failed
  all_goals
    first
    | cases failed
    | split at failed
  all_goals
    first
    | simp
    | cases failed
      try simp

theorem gauge_ok {value : Value} :
    (∃ printed, (num python value >>= intText python) = .ok printed) ↔
      Gauged python value := by
  unfold num Gauged
  cases converted : toInt python value with
  | ok gauge =>
      have same : (∃ printed, intText python gauge = .ok printed) ↔ _ := intText_ok
      constructor
      · intro printed
        refine ⟨nofun, fun other equal => ?_⟩
        rw [← Except.ok.inj equal]
        exact same.mp printed
      · exact fun gauged => same.mpr (gauged.2 gauge rfl)
  | error raised =>
      have zero := intText_ok.mpr python.zero_prints
      cases raised with
      | typeError => exact ⟨fun _ => ⟨nofun, nofun⟩, fun _ => zero⟩
      | valueError => exact ⟨fun _ => ⟨nofun, nofun⟩, fun _ => zero⟩
      | overflow => exact ⟨nofun, fun gauged => absurd rfl gauged.1⟩
      | _ => rcases toInt_raises converted with impossible | impossible | impossible <;>
          cases impossible

/-- When the samples of a state can be computed and printed. -/
theorem metrics_ok {now : Int} (ok : Int) (stamped : python.prints now = true) :
    (∃ samples, (renderMetrics python state now ok >>= printSamples python) = .ok samples) ↔
      Gauged python (Dict.get state "last_deploy_ts" .null) ∧
      Gauged python (Dict.get state "fail_count" .null) ∧
      (∃ printed, text python (Dict.get state "failed_sha" (.str [])) = .ok printed) ∧
      ∃ printed, text python (Dict.get state "last_good_sha" (.str (literal "none"))) =
          .ok printed ∧ ∀ char ∈ lastGoodLabel printed, python.encodes char = true := by
  rcases intText_ok.mpr stamped with ⟨run, printedRun⟩
  rw [← gauge_ok, ← gauge_ok]
  constructor
  · intro ⟨samples, printed⟩
    rcases bind_eq_ok.mp printed with ⟨rendered, render, encoded⟩
    unfold renderMetrics at render
    dsimp only at render
    rcases bind_eq_ok.mp render with ⟨_, _, render⟩
    rcases bind_eq_ok.mp render with ⟨ts, tsOk, render⟩
    rcases bind_eq_ok.mp render with ⟨tsText, tsPrinted, render⟩
    rcases bind_eq_ok.mp render with ⟨count, countOk, render⟩
    rcases bind_eq_ok.mp render with ⟨countText, countPrinted, render⟩
    rcases bind_eq_ok.mp render with ⟨failed, failedOk, render⟩
    rcases bind_eq_ok.mp render with ⟨good, goodOk, render⟩
    cases render
    refine ⟨⟨_, bind_eq_ok.mpr ⟨ts, tsOk, tsPrinted⟩⟩,
      ⟨_, bind_eq_ok.mpr ⟨count, countOk, countPrinted⟩⟩, ⟨failed, failedOk⟩, good, goodOk, ?_⟩
    unfold printSamples at encoded
    split at encoded
    · next all => exact List.all_eq_true.mp all
    · cases encoded
  · intro ⟨⟨tsText, tsPrinted⟩, ⟨countText, countPrinted⟩, ⟨failed, failedOk⟩, good, goodOk,
      encodes⟩
    rcases bind_eq_ok.mp tsPrinted with ⟨ts, tsOk, tsPrinted⟩
    rcases bind_eq_ok.mp countPrinted with ⟨count, countOk, countPrinted⟩
    have rendered : ∃ samples, renderMetrics python state now ok = .ok samples ∧
        samples.lastGood = lastGoodLabel good := by
      unfold renderMetrics
      rw [printedRun, tsOk, countOk, failedOk, goodOk]
      change ∃ samples, (intText python ts >>= fun lastDeploy =>
        intText python count >>= fun fails => _) = _ ∧ _
      rw [tsPrinted, countPrinted]
      exact ⟨_, rfl, rfl⟩
    rcases rendered with ⟨samples, render, label⟩
    refine ⟨samples, bind_eq_ok.mpr ⟨samples, render, ?_⟩⟩
    rw [printSamples, label, if_pos (List.all_eq_true.mpr encodes)]

/-! ## What each subcommand comes to once the state is loaded -/

theorem main_onAttempt (loaded : load python file = .ok state) :
    main python file (.onAttempt sha) =
      .state <$> printState python (onAttempt state sha) := by
  rw [main, loaded]
  rfl

theorem main_onSuccess {now : PyStr} {stamp : Int} (loaded : load python file = .ok state)
    (stamped : num python (.str now) = .ok stamp) :
    main python file (.onSuccess sha now) =
      .state <$> printState python (onSuccess state sha stamp) := by
  rw [main, loaded, stamped]
  rfl

theorem main_onFail {now : PyStr} {stamp : Int} (loaded : load python file = .ok state)
    (stamped : num python (.str now) = .ok stamp) :
    main python file (.onFail sha now) = onFail python state sha stamp >>= fun next =>
      Output.state <$> printState python next := by
  rw [main, loaded, stamped]
  rfl

theorem main_metrics {now lastRunOk : PyStr} {stamp ok : Int}
    (loaded : load python file = .ok state) (stamped : num python (.str now) = .ok stamp)
    (flagged : num python (.str lastRunOk) = .ok ok) :
    main python file (.metrics now lastRunOk) =
      .samples <$> (renderMetrics python state stamp ok >>= printSamples python) := by
  rw [main, loaded, stamped, flagged]
  change (renderMetrics python state stamp ok >>= fun samples =>
    Output.samples <$> printSamples python samples) = _
  cases renderMetrics python state stamp ok <;> rfl

/-- A state that can be printed can be printed as a success. -/
theorem writable_onSuccess {stamp : Int} (stamped : python.prints stamp = true)
    (writable : ∀ key value, state.lookup key = some value →
      writes python value = .ok ()) :
    ∀ key value, (onSuccess state sha stamp).lookup key = some value →
      writes python value = .ok () := by
  apply writable_insert rfl
  apply writable_insert rfl
  apply writable_insert (writes_int.mpr stamped)
  apply writable_insert rfl
  exact writable_insert rfl writable

theorem onSuccess_seen {stamp : Int} :
    (onSuccess state sha stamp).lookup (literal "seen_sha") =
      state.lookup (literal "seen_sha") := by
  rw [onSuccess, AList.lookup_insert_ne (by decide), AList.lookup_insert_ne (by decide),
    AList.lookup_insert_ne (by decide), AList.lookup_insert_ne (by decide),
    AList.lookup_insert_ne (by decide)]

theorem carries_onSuccess {stamp : Int} : Carries (onSuccess state sha stamp)
    [(literal "failed_sha", .str []), (literal "last_deploy_result", .str (literal "ok")),
      (literal "last_deploy_ts", .int stamp), (literal "last_deploy_sha", .str sha),
      (literal "last_good_sha", .str sha)] state :=
  carries_nil.insert.insert.insert.insert.insert

/-- What `on-fail` prints, given the count it read. -/
def failedState (state : Dict) (sha : PyStr) (now count : Int) : Dict :=
  let s := state.insert (literal "failed_sha") (.str sha)
  let s := s.insert (literal "last_deploy_sha") (.str sha)
  let s := s.insert (literal "last_deploy_ts") (.int now)
  let s := s.insert (literal "last_deploy_result") (.str (literal "rolled_back"))
  s.insert (literal "fail_count") (.int (count + 1))

theorem onFail_ok {stamp : Int} : onFail python state sha stamp = .ok printed ↔
    ∃ count, toInt python (Dict.get state "fail_count" (.int 0)) = .ok count ∧
      failedState state sha stamp count = printed := by
  rw [onFail, bind_eq_ok]
  constructor
  · intro ⟨count, counted, same⟩
    exact ⟨count, counted, Except.ok.inj same⟩
  · intro ⟨count, counted, same⟩
    exact ⟨count, counted, congrArg Except.ok same⟩

theorem writable_failedState {stamp count : Int} (stamped : python.prints stamp = true)
    (counted : python.prints (count + 1) = true)
    (writable : ∀ key value, state.lookup key = some value →
      writes python value = .ok ()) :
    ∀ key value, (failedState state sha stamp count).lookup key = some value →
      writes python value = .ok () := by
  apply writable_insert (writes_int.mpr counted)
  apply writable_insert rfl
  apply writable_insert (writes_int.mpr stamped)
  apply writable_insert rfl
  exact writable_insert rfl writable

theorem carries_failedState {stamp count : Int} :
    Carries (failedState state sha stamp count)
      [(literal "fail_count", .int (count + 1)),
        (literal "last_deploy_result", .str (literal "rolled_back")),
        (literal "last_deploy_ts", .int stamp), (literal "last_deploy_sha", .str sha),
        (literal "failed_sha", .str sha)] state :=
  carries_nil.insert.insert.insert.insert.insert

/-! ## The condition is exact -/

theorem Sound.robust (sound : Sound python file) : Robust python file := by
  have loaded := load_readable sound.readable
  constructor
  · intro sha
    have answer : main python file (.needsDeploy sha) =
        .ok (.exit (if needsDeploy (parsed python file) sha then 0 else 1)) := by
      rw [main, loaded]
      rfl
    refine ⟨?_, _, answer⟩
    rw [answer, ← needsDeploy_eq_false]
    cases needsDeploy (parsed python file) sha <;> simp [status]
  · intro sha
    refine ⟨onAttempt (parsed python file) sha, ?_, carries_nil.insert⟩
    rw [main_onAttempt loaded]
    exact map_eq_ok.mpr ⟨_, printState_ok.mpr ⟨rfl, writable_insert rfl sound.writable⟩, rfl⟩
  · intro sha now
    rcases num_str python now with ⟨stamp, stamped, short⟩
    refine ⟨_, stamp, ?_, stamped, carries_onSuccess⟩
    rw [main_onSuccess loaded stamped]
    exact map_eq_ok.mpr ⟨_, printState_ok.mpr ⟨rfl, writable_onSuccess short sound.writable⟩, rfl⟩
  · intro sha now
    rcases num_str python now with ⟨stamp, stamped, short⟩
    rcases sound.counts with ⟨count, counted, fits⟩
    refine ⟨_, stamp, count, ?_, stamped, counted, carries_failedState⟩
    rw [main_onFail loaded stamped]
    exact bind_eq_ok.mpr ⟨_, onFail_ok.mpr ⟨count, counted, rfl⟩, map_eq_ok.mpr
      ⟨_, printState_ok.mpr ⟨rfl, writable_failedState short fits sound.writable⟩, rfl⟩⟩
  · intro now lastRunOk
    rcases num_str python now with ⟨stamp, stamped, short⟩
    rcases num_str python lastRunOk with ⟨ok, flagged, _⟩
    have gauges (key : String) (member : key ∈ ["last_deploy_ts", "fail_count"]) :
        Gauged python (Dict.get (parsed python file) key .null) := sound.gauges key member
    rcases (metrics_ok ok short).mpr ⟨gauges _ (by simp), gauges _ (by simp),
      sound.failed, sound.label⟩ with ⟨samples, printed⟩
    refine ⟨samples, ?_⟩
    rw [main_metrics loaded stamped flagged]
    exact map_eq_ok.mpr ⟨samples, printed, rfl⟩

theorem Robust.sound (robust : Robust python file) : Sound python file := by
  rcases robust.attempt [] with ⟨_, attempted, _⟩
  rw [main] at attempted
  rcases bind_eq_ok.mp attempted with ⟨state, loaded, _⟩
  have readable := readable_of_load loaded
  have loaded := load_readable readable
  rcases num_str python [] with ⟨stamp, stamped, short⟩
  rcases robust.success [] [] with ⟨_, _, success, _, _⟩
  rcases robust.attempt [] with ⟨_, attempt, _⟩
  rcases robust.fail [] [] with ⟨_, _, count, fail, _, counted, _⟩
  rcases robust.metrics [] [] with ⟨samples, metrics⟩
  rw [main_onSuccess loaded stamped] at success
  rw [main_onAttempt loaded] at attempt
  rw [main_onFail loaded stamped] at fail
  rw [main_metrics loaded stamped stamped] at metrics
  rcases map_eq_ok.mp success with ⟨_, succeeds, _⟩
  rcases map_eq_ok.mp attempt with ⟨_, attempts, _⟩
  rcases bind_eq_ok.mp fail with ⟨_, fails, printed⟩
  rcases map_eq_ok.mp printed with ⟨_, printed, _⟩
  rcases map_eq_ok.mp metrics with ⟨_, measured, _⟩
  have gauged := (metrics_ok stamp short).mp ⟨_, measured⟩
  refine ⟨readable, ?_, ?_, ?_, gauged.2.2.1, gauged.2.2.2⟩
  · intro key value found
    rcases eq_or_ne key (literal "seen_sha") with same | other
    · apply (printState_ok.mp succeeds).2 key value
      rw [same, onSuccess_seen, ← same]
      exact found
    · apply (printState_ok.mp attempts).2 key value
      rw [onAttempt, AList.lookup_insert_ne other]
      exact found
  · rcases onFail_ok.mp fails with ⟨again, recounted, rfl⟩
    rw [counted] at recounted
    cases recounted
    refine ⟨count, counted, writes_int.mp ?_⟩
    apply (printState_ok.mp printed).2 (literal "fail_count")
    rw [failedState, AList.lookup_insert]
  · intro key member
    rcases List.mem_cons.mp member with rfl | member
    · exact gauged.1
    · rw [List.mem_singleton.mp member]
      exact gauged.2.1

end

/-- The subcommands are robust on exactly the sound contents of the state file. -/
theorem robust_iff {python : Python} {file : Option Bytes} :
    Robust python file ↔ Sound python file :=
  ⟨Robust.sound, Sound.robust⟩

/-! ## A state file that is no UTF-8 -/

/-- A Python that finds no JSON and no number in any text. -/
def bluntPython : Python where
  loads _ := .error .jsonDecode
  int _ := none
  prints _ := true
  encodes _ := true
  int_prints _ _ impossible := nomatch impossible
  zero_prints := rfl
  encodes_scalar _ := rfl

/-- The commit counts as handled although no state names it, and the failure of a
deploy cannot be recorded. -/
theorem undecodable_state_freezes :
    status (main bluntPython (some [0xFF]) (.needsDeploy (literal "a"))) = 1 ∧
      ¬ Handled (parsed bluntPython (some [0xFF])) (literal "a") ∧
      main bluntPython (some [0xFF]) (.onFail (literal "a") (literal "1")) =
        .error .unicodeDecode ∧
      ¬ Robust bluntPython (some [0xFF]) := by
  have undecodable : String.fromUTF8? ⟨#[0xFF]⟩ = none := by decide +kernel
  have reads : read bluntPython (some [0xFF]) = .error .unicodeDecode := by
    change (match String.fromUTF8? ⟨#[0xFF]⟩ with
      | none => Except.error Raised.unicodeDecode
      | some text => bluntPython.loads text) = _
    rw [undecodable]
  have fails : load bluntPython (some [0xFF]) = .error .unicodeDecode := by
    rw [load, reads]
  refine ⟨?_, ?_, ?_, ?_⟩
  · rw [main, fails]
    rfl
  · rw [parsed, reads, ← needsDeploy_eq_false]
    decide
  · rw [main, fails]
    rfl
  · intro robust
    rcases robust.attempt [] with ⟨_, printed, _⟩
    rw [main, fails] at printed
    cases printed

end Homelab.Autodeploy.Subcommand
