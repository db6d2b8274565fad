import Homelab.Foundation.Checklist
import Homelab.Foundation.Json
import Homelab.Foundation.Utf8

/-! # The collector of the Mac's NFS report

`nfs_client_metrics.py`, which translates the report of the Mac into metrics.
-/

namespace Homelab.NfsMetrics

open Text Python Checklist

/-- How deep the interpreter nests JSON, and `str(value)` of what is no whole number. -/
structure Interpreter where
  depth : Nat
  str : Value → Line

def exports : List String := ["srv", "generated"]

def states : List String := ["healthy", "hung", "unknown", "unmounted"]

/-! ## Numbers -/

def amount : Value → Option ℚ
  | .bool value => some (if value then 1 else 0)
  | .int value => some value
  | .float (.finite value) => some value
  | _ => none

def equals (value : Value) (number : Int) : Bool := amount value = some (number : ℚ)

/-- `left > right`, of finite numbers. Nothing else is compared. -/
def greater (left right : Value) : Except Raised Bool :=
  match amount left, amount right with
  | some left, some right => .ok (right < left)
  | _, _ => .error .typeError

/-- `left - right`. A whole number becomes a double before a double is taken off. -/
def minus (left : Int) : Value → Except Raised Value
  | .bool right => .ok (.int (left - if right then 1 else 0))
  | .int right => .ok (.int (left - right))
  | .float right =>
      match Double.nearest left with
      | none => .error .overflowError
      | some left =>
          match right with
          | .finite right => .ok (.float (Json.floatOf (left - right)))
          | .infinite negative => .ok (.float (.infinite (!negative)))
          | .nan => .ok (.float .nan)
  | _ => .error .typeError

def atMost (value : Value) (bound : Int) : Except Raised Bool :=
  match value with
  | .float .nan => .ok false
  | .float (.infinite negative) => .ok negative
  | value =>
      match amount value with
      | some number => .ok (number ≤ bound)
      | none => .error .typeError

/-! ## Validity -/

def get (fields : List (String × Value)) (name : String) : Value :=
  (fields.lookup name).getD .none

/-- `valid_number`. `math.isfinite` makes a double of a whole number. -/
def validNumber : Value → Except Raised Bool
  | .int value =>
      match Double.nearest value with
      | some _ => .ok (0 ≤ value)
      | none => .error .overflowError
  | .float (.finite value) => .ok (0 ≤ value)
  | _ => .ok false

def numberFields : List String := ["last_read_ok", "recoveries", "recovery_ok"]

def validExport (checked : Value) : Value → Except Raised Bool
  | .dict item =>
      match get item "state" with
      | .str state =>
          both (.ok (state ∈ states)) <|
          both (numberFields.allM fun field => validNumber (get item field)) <|
          both (return !(← greater (← (Value.dict item).subscript "last_read_ok") checked)) (do
            let flag ← (Value.dict item).subscript "recovery_ok"
            return equals flag 0 || equals flag 1)
      | _ => .ok false
  | _ => .ok false

def validStatus (value : Value) (now : Int) : Except Raised Bool :=
  match value with
  | .dict fields =>
      let checked := get fields "checked_at"
      both (.ok (equals (get fields "schema") 1)) <|
      both (validNumber checked) <|
      both (both (return !(← greater checked (.int now))) (.ok !(equals checked 0))) <|
      match get fields "exports" with
      | .dict items => exports.allM fun name => validExport checked (get items name)
      | _ => .ok false
  | _ => .ok false

/-! ## Metrics -/

structure Metric where
  name : String
  help : String
  samples : List (String × Value)

/-- `f"{number}"`. -/
def Interpreter.number (python : Interpreter) : Value → Line
  | .int value => (toString value).toList
  | value => python.str value

/-- The lines that `metric` adds. -/
def Metric.lines (python : Interpreter) (metric : Metric) : List Line :=
  ["# HELP ".toList ++ metric.name.toList ++ ' ' :: metric.help.toList,
    "# TYPE ".toList ++ metric.name.toList ++ ' ' :: "gauge".toList] ++
  metric.samples.map fun sample =>
    metric.name.toList ++ sample.1.toList ++ ' ' :: python.number sample.2

def text (python : Interpreter) (metrics : List Metric) : Line :=
  (metrics.flatMap (Metric.lines python)).flatMap (· ++ ['\n'])

/-- `int(flag)`. -/
def ofFlag (flag : Bool) : Value := .int (if flag then 1 else 0)

/-- `item["state"] == "healthy" and now - checked <= 600`. -/
def readOk (now : Int) (checked : Value) (item : Value) : Except Raised Bool := do
  if (← item.subscript "state").isText "healthy" then atMost (← minus now checked) 600
  else return false

/-- The metrics of an export: suffix, description and how its number is got. -/
def fields (now : Int) (checked : Value) :
    List (String × String × (Value → Except Raised Value)) :=
  [("read_ok", "Current bounded reads succeeded and report is at most 10 minutes old.",
      fun item => return ofFlag (← readOk now checked item)),
    ("last_read_success_timestamp_seconds", "Last successful bounded read.",
      Value.subscript "last_read_ok"),
    ("recovery_attempts", "Recovery attempts since daemon start.", Value.subscript "recoveries"),
    ("last_recovery_ok", "Last recovery passed a bounded read check.",
      Value.subscript "recovery_ok")]

def label (name : String) : String := "\x7bexport=\"" ++ name ++ "\"\x7d"

def exportSamples (value : Value) (valid : Bool) (read : Value → Except Raised Value) :
    Except Raised (List (String × Value)) :=
  exports.mapM fun name => do
    if valid then
      let number ← read (← (← value.subscript "exports").subscript name)
      return (label name, number)
    else return (label name, .int 0)

/-- `value["checked_at"] if valid else 0`. -/
def checkedOf (value : Value) (valid : Bool) : Except Raised Value :=
  if valid then value.subscript "checked_at" else .ok (.int 0)

def headMetrics (now : Int) (valid : Bool) (checked : Value) : List Metric :=
  [⟨"mac_nfs_collector_timestamp_seconds", "Last Pi collector run.", [("", .int now)]⟩,
    ⟨"mac_nfs_status_valid", "Mac report contains all required fields.", [("", ofFlag valid)]⟩,
    ⟨"mac_nfs_check_timestamp_seconds", "Last native Mac NFS read check.", [("", checked)]⟩]

def exportMetrics (value : Value) (valid : Bool) (now : Int) (checked : Value) :
    Except Raised (List Metric) :=
  (fields now checked).mapM fun (suffix, description, read) => do
    let samples ← exportSamples value valid read
    return ⟨"mac_nfs_" ++ suffix, description, samples⟩

def metrics (value : Value) (now : Int) : Except Raised (List Metric) := do
  let valid ← validStatus value now
  let checked ← checkedOf value valid
  let rest ← exportMetrics value valid now checked
  return headMetrics now valid checked ++ rest

def render (python : Interpreter) (value : Value) (now : Int) : Except Raised Line :=
  (metrics value now).map (text python)

def readStatus (python : Interpreter) (file : Option Line) : Except Raised Value :=
  match file with
  | none => .ok .none
  | some data =>
      match Utf8.opened data with
      | none => .ok .none
      | some text =>
          match Json.loads python.depth (.ofList text) with
          | .error .valueError => .ok .none
          | outcome => outcome

/-- `main`, which prints the metrics. `now` is the time it reads. -/
def main (python : Interpreter) (file : Option Line) (now : Int) : Except Raised Line := do
  render python (← readStatus python file) now

end Homelab.NfsMetrics
