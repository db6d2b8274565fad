import Homelab.Foundation.GoJsonNode
import Homelab.Foundation.GoTime

/-! # The health of the indexers

`Collect` asks Prowlarr for its health and for the indexers that are backed off, and the browser
for a page. Each observation has an error of its own, and a failure leaves no count behind.
-/

namespace Homelab.IndexerHealth

open Text (Line)
open GoText GoJson

/-! ## Requests -/

def maxBodyBytes : Nat := 2 ^ 20

/-- How the bytes of a body end. A connection breaks with the last of them or after it. -/
inductive Ending
  | finished
  | broken (withLast : Bool)
deriving DecidableEq

structure Response where
  statusCode : Int
  body : Line
  ending : Ending

inductive Reply
  | failed
  | answered (response : Response)

/-- What comes of a request; none where it cannot be made. -/
abbrev Outcome := Option Reply

/-- `io.ReadAll` of a body of which no more than `limit` bytes are asked for. -/
def readAll (limit : Nat) (r : Response) : Option Line :=
  match r.ending with
  | .finished => some (r.body.take limit)
  | .broken withLast =>
      if r.body.length < limit ∨ (r.body.length = limit ∧ withLast) then none
      else some (r.body.take limit)

/-- The bytes, and the error, which is empty where there is none. -/
def request : Reply → Line × String
  | .failed => ([], "request_failed")
  | .answered r =>
      if r.statusCode < 200 ∨ 300 ≤ r.statusCode then ([], "http_status")
      else
        match readAll (maxBodyBytes + 1) r with
        | none => ([], "read_failed")
        | some data => if maxBodyBytes < data.length then ([], "body_too_large") else (data, "")

/-! ## The result -/

structure Result where
  timestamp : Int
  durationMillis : Int
  prowlarrReadOk : Bool
  proxyProblems : Nat
  indexerProblems : Nat
  prowlarrError : String
  statusReadOk : Bool
  indexersInBackoff : Nat
  statusError : String
  browserOk : Bool
  browserHttpStatus : Int
  browserBytes : Nat
  browserError : String
deriving DecidableEq

def Result.zero : Result := ⟨0, 0, false, 0, 0, "", false, 0, "", false, 0, 0, ""⟩

def Result.prowlarr (r : Result) : Bool × Nat × Nat × String :=
  (r.prowlarrReadOk, r.proxyProblems, r.indexerProblems, r.prowlarrError)

def Result.status (r : Result) : Bool × Nat × String :=
  (r.statusReadOk, r.indexersInBackoff, r.statusError)

def Result.browser (r : Result) : Bool × Int × Nat × String :=
  (r.browserOk, r.browserHttpStatus, r.browserBytes, r.browserError)

/-- `bytes.HasPrefix(bytes.TrimSpace(data), "[")`. -/
def startsArray (data : Line) : Bool := (trimSpace (runes data)).head? = some '['

/-! ## Health -/

structure HealthRecord where
  source : Line
  type : Line

def HealthRecord.set (h : HealthRecord) (field : Line × Tree) : Option HealthRecord :=
  let (name, tree) := field
  if sameName "source" name then
    (readText tree h.source).map fun value => { h with source := value }
  else if sameName "type" name then
    (readText tree h.type).map fun value => { h with type := value }
  else some h

def readHealth (tree : Tree) : Option HealthRecord := readStruct HealthRecord.set tree ⟨[], []⟩

/-- A record that lacks a text takes the counts of the records before it back. -/
def countHealth (result : Result) : List HealthRecord → Result
  | [] => result
  | h :: rest =>
      if h.source = [] ∨ h.type = [] then
        { result with
          prowlarrReadOk := false
          prowlarrError := "invalid_health_record"
          proxyProblems := 0
          indexerProblems := 0 }
      else if h.type ≠ "error".toList ∧ h.type ≠ "warning".toList then countHealth result rest
      else if h.source = "IndexerProxyStatusCheck".toList then
        countHealth { result with proxyProblems := result.proxyProblems + 1 } rest
      else if "Indexer".toList.isPrefixOf h.source then
        countHealth { result with indexerProblems := result.indexerProblems + 1 } rest
      else countHealth result rest

def observeHealth (outcome : Outcome) (result : Result) : Result :=
  match outcome with
  | none => { result with prowlarrError := "invalid_request" }
  | some reply =>
      let (data, code) := request reply
      let result := { result with prowlarrError := code }
      if code = "" then
        match startsArray data, unmarshalSlice (fun node => readHealth node.tree) (runes data) with
        | true, some health => countHealth { result with prowlarrReadOk := true } health
        | _, _ => { result with prowlarrError := "invalid_json" }
      else result

/-! ## Backoff -/

structure StatusRecord where
  indexerId : Int
  disabledTill : Option Int

def StatusRecord.set (s : StatusRecord) (field : Line × Node) : Option StatusRecord :=
  let (name, node) := field
  if sameName "indexerId" name then
    (readInt node.tree s.indexerId).map fun value => { s with indexerId := value }
  else if sameName "disabledTill" name then
    match node.tree with
    | .null => some { s with disabledTill := none }
    | _ => (GoTime.unmarshal node.spelled).map fun till => { s with disabledTill := some till }
  else some s

def readStatus (node : Node) : Option StatusRecord := node.readStruct StatusRecord.set ⟨0, none⟩

/-- The indexers that are still disabled, none where a record is invalid. -/
def blockedBy (now : Int) (blocked : Finset Int) : List StatusRecord → Option (Finset Int)
  | [] => some blocked
  | r :: rest =>
      if r.indexerId ≤ 0 then none
      else if ∃ till ∈ r.disabledTill, now < till then
        blockedBy now (insert r.indexerId blocked) rest
      else blockedBy now blocked rest

def parseBackoff (data : Line) (now : Int) : Nat × String :=
  match startsArray data, unmarshalSlice readStatus (runes data) with
  | true, some records =>
      match blockedBy now ∅ records with
      | none => (0, "invalid_status_record")
      | some blocked => (blocked.card, "")
  | _, _ => (0, "invalid_json")

def observeStatus (outcome : Outcome) (now : Int) (result : Result) : Result :=
  match outcome with
  | none => { result with statusError := "invalid_request" }
  | some reply =>
      let (data, code) := request reply
      let result := { result with statusError := code }
      if code = "" then
        let (count, error) := parseBackoff data now
        { result with
          indexersInBackoff := count
          statusError := error
          statusReadOk := error = "" }
      else result

/-! ## The browser -/

structure Solution where
  status : Int
  response : Line

structure BrowserResponse where
  status : Line
  solution : Solution

def Solution.set (s : Solution) (field : Line × Tree) : Option Solution :=
  let (name, tree) := field
  if sameName "status" name then (readInt tree s.status).map fun value => { s with status := value }
  else if sameName "response" name then
    (readText tree s.response).map fun value => { s with response := value }
  else some s

def BrowserResponse.set (b : BrowserResponse) (field : Line × Tree) : Option BrowserResponse :=
  let (name, tree) := field
  if sameName "status" name then
    (readText tree b.status).map fun value => { b with status := value }
  else if sameName "solution" name then
    (readStruct Solution.set tree b.solution).map fun value => { b with solution := value }
  else some b

def readBrowser (tree : Tree) : Option BrowserResponse :=
  readStruct BrowserResponse.set tree ⟨[], ⟨0, []⟩⟩

def observeBrowser (outcome : Outcome) (result : Result) : Result :=
  match outcome with
  | none => { result with browserError := "invalid_request" }
  | some reply =>
      let (data, code) := request reply
      let result := { result with browserError := code }
      if code = "" then
        match (parse (runes data)).bind readBrowser with
        | none => { result with browserError := "invalid_json" }
        | some response =>
            let result := { result with
              browserHttpStatus := response.solution.status
              browserBytes := (String.ofList response.solution.response).utf8ByteSize }
            if response.status ≠ "ok".toList then { result with browserError := "browser_error" }
            else if response.solution.status < 200 ∨ 300 ≤ response.solution.status then
              { result with browserError := "upstream_http" }
            else if trimSpace response.solution.response = [] then
              { result with browserError := "empty_response" }
            else { result with browserOk := true }
      else result

/-! ## All three -/

/-- What a run meets: the outcomes of the requests and the clock. -/
structure Surroundings where
  health : Outcome
  status : Outcome
  browser : Outcome
  /-- The time when the status is looked at. -/
  now : Int
  finished : Int
  elapsed : Int

/-- `Collect`, with the key that was read; it is empty where there is none. -/
def collect (key : Line) (met : Surroundings) : Result :=
  let result : Result := .zero
  let result :=
    if key = [] then
      { result with prowlarrError := "config_unreadable", statusError := "config_unreadable" }
    else observeStatus met.status met.now (observeHealth met.health result)
  let result := observeBrowser met.browser result
  { result with timestamp := met.finished, durationMillis := met.elapsed }

example : (collect ['k'] ⟨some (.answered ⟨200,
    "[\x7b\"source\":\"Indexers\",\"type\":\"error\"\x7d,\x7b\x7d]".toList, .finished⟩),
    none, none, 0, 0, 0⟩).prowlarr = (false, 0, 0, "invalid_health_record") := by decide +kernel

end Homelab.IndexerHealth
