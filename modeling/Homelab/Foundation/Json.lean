import Homelab.Foundation.Double
import Homelab.Foundation.Python

/-! # JSON text as Python reads and writes it

`json.loads` and `json.dumps`. Half of a surrogate pair is read as the replacement
character.
-/

namespace Homelab.Json

open Python

def isSpace (char : Char) : Bool :=
  char = ' ' || char = '\t' || char = '\n' || char = '\r'

/-- The text from its first visible character on. -/
def skip (chars : List Char) : List Char := chars.dropWhile isSpace

/-! ## Texts -/

def hexDigit (char : Char) : Option Nat :=
  if char.isDigit then some (char.toNat - 48)
  else if 'a' ≤ char ∧ char ≤ 'f' then some (char.toNat - 87)
  else if 'A' ≤ char ∧ char ≤ 'F' then some (char.toNat - 55)
  else none

def hexCode (digits : List Char) : Option Nat :=
  digits.foldlM (fun code char => (hexDigit char).map (code * 16 + ·)) 0

def escaped : Char → Option Char
  | '"' => some '"'
  | '\\' => some '\\'
  | '/' => some '/'
  | 'b' => some (.ofNat 8)
  | 'f' => some (.ofNat 12)
  | 'n' => some '\n'
  | 'r' => some '\r'
  | 't' => some '\t'
  | _ => none

def highHalf (code : Nat) : Bool := 0xD800 ≤ code && code < 0xDC00

def lowHalf (code : Nat) : Bool := 0xDC00 ≤ code && code < 0xE000

def joined (high low : Nat) : Char :=
  .ofNat (0x10000 + (high - 0xD800) * 0x400 + (low - 0xDC00))

/-- A first half without its second one. -/
def lone (pending : Option Nat) : List Char :=
  match pending with
  | none => []
  | some _ => [.ofNat 0xFFFD]

def whole (code : Nat) : Char := if lowHalf code then .ofNat 0xFFFD else .ofNat code

/-- A text after its opening quote, and what follows the closing one. `pending` is the
first half of a surrogate pair that comes right before. -/
def scanString (pending : Option Nat) : List Char → Option (List Char × List Char)
  | [] => none
  | '"' :: rest => some (lone pending, rest)
  | '\\' :: 'u' :: a :: b :: c :: d :: rest => do
      let code ← hexCode [a, b, c, d]
      match pending, lowHalf code with
      | some high, true =>
          (scanString none rest).map fun (text, rest) => (joined high code :: text, rest)
      | _, _ =>
          if highHalf code then
            (scanString (some code) rest).map fun (text, rest) => (lone pending ++ text, rest)
          else
            (scanString none rest).map fun (text, rest) =>
              (lone pending ++ whole code :: text, rest)
  | '\\' :: char :: rest => do
      let char ← escaped char
      (scanString none rest).map fun (text, rest) => (lone pending ++ char :: text, rest)
  | char :: rest =>
      if char.toNat < 32 then none
      else (scanString none rest).map fun (text, rest) => (lone pending ++ char :: text, rest)

/-! ## Numbers -/

def natOf (digits : List Char) : Nat :=
  digits.foldl (fun value char => value * 10 + (char.toNat - 48)) 0

def scanWhole : List Char → Option (List Char × List Char)
  | '0' :: rest => some (['0'], rest)
  | chars =>
      match chars.span Char.isDigit with
      | ([], _) => none
      | digits => some digits

def scanFraction : List Char → Option (List Char) × List Char
  | '.' :: rest =>
      match rest.span Char.isDigit with
      | ([], _) => (none, '.' :: rest)
      | (digits, rest) => (some digits, rest)
  | chars => (none, chars)

def scanSign : List Char → Int × List Char
  | '-' :: rest => (-1, rest)
  | '+' :: rest => (1, rest)
  | rest => (1, rest)

def scanExponent (chars : List Char) : Option Int × List Char :=
  match chars with
  | mark :: rest =>
      if mark = 'e' ∨ mark = 'E' then
        let (sign, digits) := scanSign rest
        match digits.span Char.isDigit with
        | ([], _) => (none, chars)
        | (digits, rest) => (some (sign * natOf digits), rest)
      else (none, chars)
  | [] => (none, chars)

/-- `float(text)` of a number that is written. -/
def floatOf (number : ℚ) : PyFloat :=
  match Double.nearest number with
  | some value => .finite value
  | none => .infinite (number < 0)

/-- `-?(0|[1-9]\d*)(\.\d+)?([eE][-+]?\d+)?`. No more than 4300 digits are read as an
`int`. -/
def scanNumber (chars : List Char) : Except Raised (Value × List Char) :=
  let (negative, chars) : Bool × List Char :=
    match chars with
    | '-' :: rest => (true, rest)
    | chars => (false, chars)
  match scanWhole chars with
  | none => .error .valueError
  | some (digits, rest) =>
      let sign : Int := if negative then -1 else 1
      let (fraction, rest) := scanFraction rest
      let (exponent, rest) := scanExponent rest
      match fraction, exponent with
      | none, none =>
          if digits.length ≤ 4300 then .ok (.int (sign * natOf digits), rest)
          else .error .valueError
      | fraction, exponent =>
          let decimals := fraction.getD []
          let scale : ℚ := (10 : ℚ) ^ (exponent.getD 0 - decimals.length)
          .ok (.float (floatOf (sign * natOf (digits ++ decimals) * scale)), rest)

/-- `null`, `true`, `false` and the numbers that are no numbers. -/
def constants : List (List Char × Value) :=
  [("null".toList, .none), ("true".toList, .bool true), ("false".toList, .bool false),
    ("NaN".toList, .float .nan), ("Infinity".toList, .float (.infinite false)),
    ("-Infinity".toList, .float (.infinite true))]

def scanAtom (chars : List Char) : Except Raised (Value × List Char) :=
  match constants.find? fun constant => constant.1.isPrefixOf chars with
  | some (name, value) => .ok (value, chars.drop name.length)
  | none => scanNumber chars

/-! ## Values -/

def quoted (chars : List Char) : Except Raised (String × List Char) :=
  match scanString none chars with
  | some (text, rest) => .ok (.ofList text, rest)
  | none => .error .valueError

/- `steps` bounds the work and never runs out. `depth` is how many more lists and objects
the interpreter nests. -/
mutual

def scanValue (steps depth : Nat) (chars : List Char) : Except Raised (Value × List Char) :=
  match steps with
  | 0 => .error .recursionError
  | steps + 1 =>
      match chars with
      | '"' :: rest => (quoted rest).map fun (text, rest) => (.str text, rest)
      | '[' :: rest =>
          match depth with
          | 0 => .error .recursionError
          | depth + 1 =>
              match skip rest with
              | ']' :: rest => .ok (.list [], rest)
              | rest => (scanItems steps depth rest).map fun (items, rest) => (.list items, rest)
      | '{' :: rest =>
          match depth with
          | 0 => .error .recursionError
          | depth + 1 =>
              match skip rest with
              | '}' :: rest => .ok (.dict [], rest)
              | rest => (scanFields steps depth [] rest).map fun (fields, rest) =>
                  (.dict fields, rest)
      | chars => scanAtom chars

def scanItems (steps depth : Nat) (chars : List Char) :
    Except Raised (List Value × List Char) :=
  match steps with
  | 0 => .error .recursionError
  | steps + 1 => do
      let (value, rest) ← scanValue steps depth chars
      match skip rest with
      | ',' :: rest => do
          let (items, rest) ← scanItems steps depth (skip rest)
          return (value :: items, rest)
      | ']' :: rest => return ([value], rest)
      | _ => .error .valueError

/-- The fields of an object and its closing brace. A name that comes twice keeps its
place and takes the later value. -/
def scanFields (steps depth : Nat) (fields : List (String × Value)) (chars : List Char) :
    Except Raised (List (String × Value) × List Char) :=
  match steps with
  | 0 => .error .recursionError
  | steps + 1 =>
      match chars with
      | '"' :: rest => do
          let (name, rest) ← quoted rest
          match skip rest with
          | ':' :: rest => do
              let (value, rest) ← scanValue steps depth (skip rest)
              let fields := Table.put name value fields
              match skip rest with
              | ',' :: rest => scanFields steps depth fields (skip rest)
              | '}' :: rest => return (fields, rest)
              | _ => .error .valueError
          | _ => .error .valueError
      | _ => .error .valueError

end

/-- `json.loads(text)`, where lists and objects nest up to `depth`. -/
def loads (depth : Nat) (text : String) : Except Raised Value := do
  let chars := skip text.toList
  let (value, rest) ← scanValue (2 * chars.length + 1) depth chars
  match skip rest with
  | [] => return value
  | _ => .error .valueError

/-! ## What reading raises -/

/-- If it raises, the text is wrong or nests too deep. -/
def Refuses {α : Type} (outcome : Except Raised α) : Prop :=
  ∀ raised, outcome = .error raised → raised = .valueError ∨ raised = .recursionError

section

variable {α β : Type}

theorem refuses_ok (value : α) : Refuses (.ok value) := by
  intro raised failed
  cases failed

theorem refuses_value : Refuses (.error .valueError : Except Raised α) := by
  intro raised failed
  cases failed
  exact .inl rfl

theorem refuses_recursion : Refuses (.error .recursionError : Except Raised α) := by
  intro raised failed
  cases failed
  exact .inr rfl

theorem Refuses.bind {outcome : Except Raised α} {next : α → Except Raised β}
    (first : Refuses outcome) (second : ∀ value, Refuses (next value)) :
    Refuses (outcome >>= next) := by
  intro raised failed
  cases outcome with
  | error own =>
      cases failed
      exact first _ rfl
  | ok value => exact second value raised failed

theorem Refuses.map {outcome : Except Raised α} (change : α → β) (first : Refuses outcome) :
    Refuses (outcome.map change) := by
  intro raised failed
  cases outcome with
  | error own =>
      cases failed
      exact first _ rfl
  | ok value => cases failed

end

theorem quoted_refuses (chars : List Char) : Refuses (quoted chars) := by
  rw [quoted]
  split
  · exact refuses_ok _
  · exact refuses_value

theorem scanNumber_refuses (chars : List Char) : Refuses (scanNumber chars) := by
  simp only [scanNumber]
  generalize scanWhole _ = scanned
  split
  · exact refuses_value
  · split
    · split
      · exact refuses_ok _
      · exact refuses_value
    · exact refuses_ok _

theorem scanAtom_refuses (chars : List Char) : Refuses (scanAtom chars) := by
  rw [scanAtom]
  split
  · exact refuses_ok _
  · exact scanNumber_refuses chars

theorem scan_refuses (steps : Nat) :
    (∀ depth chars, Refuses (scanValue steps depth chars)) ∧
      (∀ depth chars, Refuses (scanItems steps depth chars)) ∧
      ∀ depth fields chars, Refuses (scanFields steps depth fields chars) := by
  induction steps with
  | zero =>
      refine ⟨?_, ?_, ?_⟩
      · intro depth chars
        rw [scanValue]
        exact refuses_recursion
      · intro depth chars
        rw [scanItems]
        exact refuses_recursion
      · intro depth fields chars
        rw [scanFields]
        exact refuses_recursion
  | succ steps induction =>
      rcases induction with ⟨values, items, fields⟩
      refine ⟨?_, ?_, ?_⟩
      · intro depth chars
        rw [scanValue.eq_def]
        simp only
        split
        · exact (quoted_refuses _).map _
        · split
          · exact refuses_recursion
          · split
            · exact refuses_ok _
            · exact (items _ _).map _
        · split
          · exact refuses_recursion
          · split
            · exact refuses_ok _
            · exact (fields _ _ _).map _
        · exact scanAtom_refuses _
      · intro depth chars
        rw [scanItems]
        refine (values depth chars).bind fun scanned => ?_
        rcases scanned with ⟨value, rest⟩
        simp only
        split
        · exact (items _ _).bind fun _ => refuses_ok _
        · exact refuses_ok _
        · exact refuses_value
      · intro depth own chars
        rw [scanFields.eq_def]
        simp only
        split
        · refine (quoted_refuses _).bind fun scanned => ?_
          rcases scanned with ⟨name, rest⟩
          simp only
          split
          · refine (values _ _).bind fun scanned => ?_
            rcases scanned with ⟨value, rest⟩
            simp only
            split
            · exact fields _ _ _
            · exact refuses_ok _
            · exact refuses_value
          · exact refuses_value
        · exact refuses_value

theorem loads_refuses (depth : Nat) (text : String) : Refuses (loads depth text) := by
  rw [loads]
  refine ((scan_refuses _).1 depth _).bind fun scanned => ?_
  rcases scanned with ⟨value, rest⟩
  simp only
  split
  · exact refuses_ok _
  · exact refuses_value

/-! ## Writing -/

def hexChar (digit : Nat) : Char := .ofNat (if digit < 10 then 48 + digit else 87 + digit)

/-- `\\u` and four digits. -/
def unicodeEscape (code : Nat) : List Char :=
  ['\\', 'u', hexChar (code / 4096 % 16), hexChar (code / 256 % 16),
    hexChar (code / 16 % 16), hexChar (code % 16)]

def escape (char : Char) : List Char :=
  if char = '"' then ['\\', '"']
  else if char = '\\' then ['\\', '\\']
  else if char = '\n' then ['\\', 'n']
  else if char = '\r' then ['\\', 'r']
  else if char = '\t' then ['\\', 't']
  else if char.toNat = 8 then ['\\', 'b']
  else if char.toNat = 12 then ['\\', 'f']
  else if 32 ≤ char.toNat ∧ char.toNat < 127 then [char]
  else if char.toNat < 0x10000 then unicodeEscape char.toNat
  else
    unicodeEscape (0xD800 + (char.toNat - 0x10000) / 0x400) ++
      unicodeEscape (0xDC00 + (char.toNat - 0x10000) % 0x400)

/-- `json.dumps(text)`. -/
def dumpText (text : String) : List Char := '"' :: text.toList.flatMap escape ++ ['"']

/-- A list of written values, with `separators=(",", ":")`. -/
def dumpList (items : List (List Char)) : List Char :=
  '[' :: [','].intercalate items ++ [']']

/-- An object of written values, with `separators=(",", ":")`. -/
def dumpDict (fields : List (String × List Char)) : List Char :=
  '{' :: [','].intercalate (fields.map fun field => dumpText field.1 ++ ':' :: field.2) ++ ['}']

example : dumpDict [("a", dumpList [dumpText "ı\n"])] =
    "\x7b\"a\":[\"\\u0131\\n\"]\x7d".toList := by
  decide

end Homelab.Json
