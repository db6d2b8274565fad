import Homelab.Foundation.Text
import Mathlib.Data.List.AList

/-! # The controller's state file -/

namespace Homelab.Autodeploy

open Text

/-- A value of the JSON state. `other` is a float, a list or an object: what
`str()` prints for it, whether it is true, and what `int()` makes of it. -/
inductive Value
  | null
  | bool (value : Bool)
  | int (value : Int)
  | str (value : String)
  | other (printed : String) (truth : Bool) (number : Option Int)
deriving DecidableEq

namespace Value

/-- `str(value)`. -/
def text : Value → String
  | null => "None"
  | bool true => "True"
  | bool false => "False"
  | int value => toString value
  | str value => value
  | other printed _ _ => printed

/-- `bool(value)`. -/
def truthy : Value → Bool
  | null => false
  | bool value => value
  | int value => value ≠ 0
  | str value => value ≠ ""
  | other _ truth _ => truth

/-- `int(value)`, `none` if it raises. -/
def toInt : Value → Option Int
  | null => none
  | bool value => some (if value then 1 else 0)
  | int value => some value
  | str value => intOf value
  | other _ _ number => number

end Value

abbrev Dict := AList fun _ : String => Value

/-- `state.get(key, default)`. -/
def Dict.get (state : Dict) (key : String) (default : Value) : Value :=
  (state.lookup key).getD default

/-- What is in the state file. `undecodable` is content on which `json.load`
raises something that is no `JSONDecodeError`; `scalar` is JSON but no object. -/
inductive StateFile
  | missing
  | malformed
  | undecodable
  | scalar
  | document (state : Dict)

/-- `_load`, `none` if it raises. -/
def StateFile.load : StateFile → Option Dict
  | .document state => some state
  | .undecodable => none
  | _ => some ∅

def needsDeploy (state : Dict) (originHead : String) : Bool :=
  let head := strip originHead
  if head = "" then false
  else if state.lookup "failed_sha" = some (.str head) then false
  else state.lookup "seen_sha" ≠ some (.str head)

def ciPassed (conclusion : String) : Bool :=
  lower (strip conclusion) = "success"

def onAttempt (state : Dict) (sha : String) : Dict :=
  state.insert "seen_sha" (.str (strip sha))

def onSuccess (state : Dict) (sha : String) (now : Int) : Dict :=
  let s := state.insert "last_good_sha" (.str sha)
  let s := s.insert "last_deploy_sha" (.str sha)
  let s := s.insert "last_deploy_ts" (.int now)
  let s := s.insert "last_deploy_result" (.str "ok")
  s.insert "failed_sha" (.str "")

/-- `on_fail` raises on a `fail_count` that is no number. -/
def onFail (state : Dict) (sha : String) (now : Int) : Option Dict :=
  (Dict.get state "fail_count" (.int 0)).toInt.map fun count =>
    let s := state.insert "failed_sha" (.str sha)
    let s := s.insert "last_deploy_sha" (.str sha)
    let s := s.insert "last_deploy_ts" (.int now)
    let s := s.insert "last_deploy_result" (.str "rolled_back")
    s.insert "fail_count" (.int (count + 1))

inductive StateCommand
  | onAttempt (sha : String)
  | onSuccess (sha : String) (now : Int)
  | onFail (sha : String) (now : Int)
deriving DecidableEq

def StateCommand.apply (command : StateCommand) (state : Dict) : Option Dict :=
  match command with
  | .onAttempt sha => some (Autodeploy.onAttempt state sha)
  | .onSuccess sha now => some (Autodeploy.onSuccess state sha now)
  | .onFail sha now => Autodeploy.onFail state sha now

/-- What the shell reads as `last_good_sha`: empty if there is none. -/
def StateFile.lastGood : StateFile → String
  | .document state =>
      let value := Dict.get state "last_good_sha" .null
      if value.truthy then substitute value.text else ""
  | _ => ""

/-! ## Metrics -/

def num (value : Value) : Int := value.toInt.getD 0

/-- The gauges of `render_metrics`, in their order. -/
structure Metrics where
  lastRunUnixSeconds : Int
  lastRunSuccess : Bool
  lastDeployUnixSeconds : Int
  failTotal : Int
  lastResultRolledBack : Bool
  held : Bool
  lastGood : String
deriving DecidableEq

def rolledBack (state : Dict) : Bool :=
  Dict.get state "last_deploy_result" (.str "none") = .str "rolled_back"

def held (state : Dict) : Bool :=
  strip (Dict.get state "failed_sha" (.str "")).text ≠ ""

def lastGoodLabel (state : Dict) : String :=
  let text := (Dict.get state "last_good_sha" (.str "none")).text
  let sha := take 12 (.ofList (text.toList.filter (· ≠ '"')))
  if sha = "" then "none" else sha

def renderMetrics (state : Dict) (now : Int) (lastRunOk : Bool) : Metrics :=
  ⟨now, lastRunOk, num (Dict.get state "last_deploy_ts" .null),
    num (Dict.get state "fail_count" .null), rolledBack state, held state,
    lastGoodLabel state⟩

def Metrics.NotApplied (metrics : Metrics) : Prop :=
  metrics.held = true ∨ metrics.lastRunSuccess = false ∨
    metrics.lastResultRolledBack = true

instance (metrics : Metrics) : Decidable metrics.NotApplied :=
  inferInstanceAs (Decidable (_ ∨ _ ∨ _))

@[simp] theorem renderMetrics_notApplied {state : Dict} {now : Int} {runOk : Bool} :
    (renderMetrics state now runOk).NotApplied ↔
      held state = true ∨ runOk = false ∨ rolledBack state = true := by
  simp only [Metrics.NotApplied, renderMetrics]

/-! ## What the transitions leave -/

section

variable {state failed : Dict} {sha : String} {now : Int}

theorem needsDeploy_strip (needed : needsDeploy state sha = true) :
    strip sha ≠ "" := by
  intro blank
  simp [needsDeploy, blank] at needed

theorem needsDeploy_seen
    (seen : state.lookup "seen_sha" = some (.str (strip sha))) :
    needsDeploy state sha = false := by
  simp only [needsDeploy]
  split
  · rfl
  · split
    · rfl
    · simp [seen]

@[simp] theorem onAttempt_seen :
    (onAttempt state sha).lookup "seen_sha" = some (.str (strip sha)) := by
  simp [onAttempt]

theorem onAttempt_get {key : String} {default : Value} (other : key ≠ "seen_sha") :
    Dict.get (onAttempt state sha) key default = Dict.get state key default := by
  simp [Dict.get, onAttempt, AList.lookup_insert_ne other]

@[simp] theorem held_onAttempt : held (onAttempt state sha) = held state := by
  simp [held, onAttempt_get]

@[simp] theorem rolledBack_onAttempt :
    rolledBack (onAttempt state sha) = rolledBack state := by
  simp [rolledBack, onAttempt_get]

theorem substitute_lastGood (file : StateFile) :
    substitute file.lastGood = file.lastGood := by
  cases file with
  | document state =>
      simp only [StateFile.lastGood]
      split
      · exact substitute_substitute _
      · rfl
  | _ => rfl

theorem onSuccess_seen : (onSuccess state sha now).lookup "seen_sha" =
    state.lookup "seen_sha" := by
  simp [onSuccess, AList.lookup_insert_ne]

@[simp] theorem onSuccess_lastGood :
    (StateFile.document (onSuccess state sha now)).lastGood = substitute sha := by
  by_cases empty : sha = ""
  · subst empty
    simp [StateFile.lastGood, Dict.get, onSuccess, AList.lookup_insert_ne,
      Value.truthy, substitute]
  · simp [StateFile.lastGood, Dict.get, onSuccess, AList.lookup_insert_ne,
      Value.truthy, Value.text, empty]

@[simp] theorem onAttempt_lastGood :
    (StateFile.document (onAttempt state sha)).lastGood =
      (StateFile.document state).lastGood := by
  simp [StateFile.lastGood, onAttempt_get]

theorem onFail_keeps (key : String) (recorded : onFail state sha now = some failed)
    (other : key ∉ ["failed_sha", "last_deploy_sha", "last_deploy_ts",
      "last_deploy_result", "fail_count"]) :
    failed.lookup key = state.lookup key := by
  simp only [List.mem_cons, List.not_mem_nil, or_false, not_or] at other
  rcases Option.map_eq_some_iff.mp recorded with ⟨count, _, rfl⟩
  rw [AList.lookup_insert_ne other.2.2.2.2, AList.lookup_insert_ne other.2.2.2.1,
    AList.lookup_insert_ne other.2.2.1, AList.lookup_insert_ne other.2.1,
    AList.lookup_insert_ne other.1]

theorem onFail_lastGood (recorded : onFail state sha now = some failed) :
    (StateFile.document failed).lastGood = (StateFile.document state).lastGood := by
  have kept := onFail_keeps "last_good_sha" recorded (by decide)
  have same : Dict.get failed "last_good_sha" .null =
      Dict.get state "last_good_sha" .null := by
    rw [Dict.get, Dict.get, kept]
  simp only [StateFile.lastGood, same]

/-- A file without a state is as good as an empty one. -/
theorem load_lastGood {file : StateFile} (loaded : file.load = some state) :
    (StateFile.document state).lastGood = file.lastGood := by
  cases file with
  | document other =>
      cases loaded
      rfl
  | undecodable => cases loaded
  | _ =>
      cases loaded
      rfl

/-- Only a success moves `last_good_sha`. -/
theorem apply_lastGood {file : StateFile} {command : StateCommand}
    (other : ∀ sha now, command ≠ .onSuccess sha now)
    (applied : file.load.bind command.apply = some state) :
    (StateFile.document state).lastGood = file.lastGood := by
  rcases Option.bind_eq_some_iff.mp applied with ⟨found, loaded, next⟩
  rw [← load_lastGood loaded]
  cases command with
  | onAttempt sha =>
      cases next
      exact onAttempt_lastGood
  | onSuccess sha now => exact absurd rfl (other sha now)
  | onFail sha now => exact onFail_lastGood next

theorem held_onFail (recorded : onFail state sha now = some failed)
    (present : strip sha ≠ "") : held failed = true := by
  rcases Option.map_eq_some_iff.mp recorded with ⟨count, _, rfl⟩
  simp [held, Dict.get, AList.lookup_insert_ne, Value.text, present]

end

end Homelab.Autodeploy
