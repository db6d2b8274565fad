import Homelab.Foundation.Json

/-! # The split-DNS decider

The decision layer of the drift check: which required domains the tailnet's routes
leave out or send elsewhere, which routes are left over, and the patch that repairs
both.
-/

namespace Homelab.SplitDns

open Text Python

/-- What the decider relies on in `str.lower`, which maps more than the ASCII letters. -/
structure Lowering where
  lower : String → String
  idempotent : ∀ text, lower (lower text) = lower text
  spaceless : ∀ text, Spaceless text → Spaceless (lower text)
  dotless : ∀ text, (lower text).toList.getLast? = some '.' →
    text.toList.getLast? = some '.'

theorem toLower_cases (char : Char) :
    char.toLower = char ∨ (97 ≤ char.toLower.toNat ∧ char.toLower.toNat ≤ 122) := by
  unfold Char.toLower
  split
  · next upper =>
      right
      simp only [Char.toNat]
      simp [UInt32.le_iff_toNat_le] at upper ⊢
      omega
  · exact .inl rfl

theorem toLower_toLower (char : Char) : char.toLower.toLower = char.toLower := by
  rcases toLower_cases char with same | ⟨low, _⟩
  · rw [same, same]
  · generalize char.toLower = lowered at low
    unfold Char.toLower
    rw [dif_neg]
    rintro ⟨_, top⟩
    have top : lowered.toNat ≤ 90 := UInt32.le_iff_toNat_le.mp top
    omega

/-- A character that is no small letter comes from itself alone. -/
theorem eq_of_toLower_eq {char other : Char} (lowered : char.toLower = other)
    (outside : other.toNat < 97 ∨ 122 < other.toNat) : char = other := by
  rcases toLower_cases char with same | ⟨low, high⟩
  · rw [← lowered, same]
  · rw [lowered] at low high
    omega

theorem isSpace_toLower {char : Char} (visible : isSpace char = false) :
    isSpace char.toLower = false := by
  rcases toLower_cases char with same | ⟨low, high⟩
  · rw [same, visible]
  · simp [isSpace]
    omega

theorem lower_lower (text : String) : Text.lower (Text.lower text) = Text.lower text := by
  have same : Char.toLower ∘ Char.toLower = Char.toLower := funext toLower_toLower
  rw [Text.lower, Text.lower, String.toList_ofList, List.map_map, same]

theorem lower_spaceless (text : String) (spaceless : Spaceless text) :
    Spaceless (Text.lower text) := by
  intro char member
  rw [Text.lower, String.toList_ofList] at member
  rcases List.mem_map.mp member with ⟨own, listed, rfl⟩
  exact isSpace_toLower (spaceless own listed)

theorem lower_dotless (text : String)
    (last : (Text.lower text).toList.getLast? = some '.') :
    text.toList.getLast? = some '.' := by
  rw [Text.lower, String.toList_ofList, List.getLast?_map, Option.map_eq_some_iff] at last
  rcases last with ⟨own, last, lowered⟩
  rw [last, eq_of_toLower_eq lowered (by decide)]

/-- Names of ASCII letters. -/
def asciiLowering : Lowering where
  lower := Text.lower
  idempotent := lower_lower
  spaceless := lower_spaceless
  dotless := lower_dotless

variable (letters : Lowering)

/-- Normalise a DNS name for comparison: lowercase, no trailing dot. -/
def norm (domain : String) : String := letters.lower (rstrip ['.'] (strip domain))

/-- A route covers its own name and everything below it, and nothing else. -/
def covers (route domain : String) : Bool :=
  let r := norm letters route
  let d := norm letters domain
  if r = "" ∨ d = "" then false
  else decide (d = r) || endsWith ("." ++ r) d

/-- Outcome of comparing live routes against the domains we require. -/
structure Verdict where
  missing : List String
  misrouted : List String
  stale : List String
  desiredPatch : Dict String (Option (List String))

def Verdict.initial : Verdict where
  missing := []
  misrouted := []
  stale := []
  desiredPatch := Dict.empty

/-- Every required domain resolves via our nameserver. -/
def Verdict.ok (verdict : Verdict) : Bool :=
  verdict.missing.isEmpty && verdict.misrouted.isEmpty

abbrev Routes := Dict String (List String)

def lists (nameserver : String) (addrs : List String) : Bool :=
  (addrs.map (norm letters)).contains (norm letters nameserver)

def judgeDomain (routes : Routes) (nameserver : String) (v : Verdict)
    (domain : String) : Verdict :=
  let d := norm letters domain
  if d = "" then v
  else
    let covering := routes.entries.filter fun route => covers letters route.1 d
    if covering.isEmpty then
      { v with
        missing := v.missing ++ [strip domain]
        desiredPatch := v.desiredPatch.put (strip domain) (some [nameserver]) }
    else if !covering.any fun route => lists letters nameserver route.2 then
      { v with
        misrouted := v.misrouted ++ [strip domain]
        desiredPatch := v.desiredPatch.put (strip domain) (some [nameserver]) }
    else v

def judgeRoute (requiredNorm : List String) (nameserver : String) (v : Verdict)
    (route : String × List String) : Verdict :=
  if !lists letters nameserver route.2 then v
  else if !requiredNorm.any fun d => covers letters route.1 d || covers letters d route.1 then
    { v with
      stale := v.stale ++ [route.1]
      desiredPatch := v.desiredPatch.put route.1 none }
  else v

/-- Diff live split-DNS routes against the domains we require. -/
def decide (actualRoutes : Routes) (requiredDomains : List String)
    (nameserver : String) : Verdict :=
  let judged := requiredDomains.foldl (judgeDomain letters actualRoutes nameserver) .initial
  let requiredNorm := (requiredDomains.map (norm letters)).filter (· ≠ "")
  actualRoutes.entries.foldl (judgeRoute letters requiredNorm nameserver) judged

/-- The patch as the control plane applies it: set on a list, delete on null. -/
def applyPatch (routes : Routes) (patch : Dict String (Option (List String))) : Routes :=
  patch.entries.foldl
    (fun routes entry =>
      match entry.2 with
      | some addrs => routes.put entry.1 addrs
      | none => routes.pop entry.1)
    routes

/-! ## Reading the status -/

structure Interpreter where
  letters : Lowering
  /-- How standard input is decoded; `none` when that raises. -/
  decode : List UInt8 → Option String
  /-- How far lists and objects may nest in JSON text. -/
  depth : Nat
  deep : 3 ≤ depth
  /-- `str` of a value that is neither a text nor an `int`. -/
  repr : Value → String

variable (python : Interpreter)

def Interpreter.str : Value → String
  | .str text => text
  | .int value => toString value
  | value => python.repr value

def getOrEmpty (name : String) (fields : List (String × Value)) : Value :=
  match fields.lookup name with
  | some value => if value.truthy then value else .dict []
  | none => .dict []

def address (entry : Value) : List String :=
  let addr :=
    match entry with
    | .dict fields => (fields.lookup "Addr").getD .none
    | entry => entry
  if addr.truthy then [python.str addr] else []

def addresses (entries : Value) : Except Raised (List String) :=
  if entries.truthy then entries.iterate.map fun items => items.flatMap (address python)
  else .ok []

/-- Extract `{route: [addr, ...]}` from `tailscale dns status --json`. -/
def parseStatus (raw : String) : Except Raised Routes := do
  match ← Json.loads python.depth raw with
  | .dict data =>
      match getOrEmpty "SplitDNSRoutes" data with
      | .dict routes =>
          routes.foldlM
            (fun out route => (addresses python route.2).map fun addrs => out.put route.1 addrs)
            Dict.empty
      | _ => .ok Dict.empty
  | _ => .error .valueError

/-! ## The command line -/

def dumpTexts (texts : List String) : List Char := Json.dumpList (texts.map Json.dumpText)

def dumpChange (addrs : Option (List String)) : List Char :=
  match addrs with
  | some addrs => dumpTexts addrs
  | none => ['n', 'u', 'l', 'l']

def Verdict.text (verdict : Verdict) (scrapeOk : Nat) : String :=
  .ofList (Json.dumpDict [
    ("missing", dumpTexts verdict.missing),
    ("misrouted", dumpTexts verdict.misrouted),
    ("stale", dumpTexts verdict.stale),
    ("desired_patch", Json.dumpDict (verdict.desiredPatch.entries.map fun entry =>
      (entry.1, dumpChange entry.2))),
    ("ok", (toString (if verdict.ok then 1 else 0)).toList),
    ("scrape_ok", (toString scrapeOk).toList)])

/-- What a run of the decider prints, and its exit status unless it ends in a traceback. -/
structure Run where
  stdout : String
  exit : Except Raised Nat

/-- The decider's `main`, from its parsed arguments. -/
def main (domains nameserver : String) (stdin : List UInt8) : Run :=
  let domains := (split ',' domains).filter fun d => strip d ≠ ""
  match python.decode stdin with
  | none => { stdout := "", exit := .error .valueError }
  | some raw =>
      match parseStatus python raw with
      | .error .valueError => { stdout := Verdict.initial.text 0 ++ "\n", exit := .ok 2 }
      | .error raised => { stdout := "", exit := .error raised }
      | .ok actual =>
          let verdict := decide python.letters actual domains nameserver
          { stdout := verdict.text 1 ++ "\n", exit := .ok (if verdict.ok then 0 else 1) }

end Homelab.SplitDns
