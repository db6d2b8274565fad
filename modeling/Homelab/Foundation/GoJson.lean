import Homelab.Foundation.Double
import Homelab.Foundation.GoText

/-! # JSON text as Go reads it

`encoding/json`: a text is scanned as a whole, and what it holds is then put into a Go value.
The characters are the runes of the text.
-/

namespace Homelab.GoJson

open Text Json GoText

/-! ## Numbers -/

structure Numeral where
  text : Line
  negative : Bool
  whole : Line
  fraction : Option Line
  exponent : Option Int

def scanNumeral (text : Line) : Option (Numeral × Line) :=
  let (negative, chars) : Bool × Line :=
    match text with
    | '-' :: rest => (true, rest)
    | chars => (false, chars)
  match scanWhole chars with
  | none => none
  | some (whole, rest) =>
      let (fraction, rest) := scanFraction rest
      let (exponent, rest) := scanExponent rest
      some (⟨text.take (text.length - rest.length), negative, whole, fraction, exponent⟩, rest)

def Numeral.isWhole (numeral : Numeral) : Bool :=
  numeral.fraction.isNone && numeral.exponent.isNone

def Numeral.sign (numeral : Numeral) : Int := if numeral.negative then -1 else 1

def Numeral.wholeValue (numeral : Numeral) : Int := numeral.sign * natOf numeral.whole

def Numeral.exact (numeral : Numeral) : ℚ :=
  let decimals := numeral.fraction.getD []
  let scale : ℚ := (10 : ℚ) ^ (numeral.exponent.getD 0 - decimals.length)
  numeral.sign * natOf (numeral.whole ++ decimals) * scale

/-- `Number.Int64`. -/
def Numeral.int64 (numeral : Numeral) : Option Int :=
  if numeral.isWhole && decide (InInt64 numeral.wholeValue) then some numeral.wholeValue
  else none

/-- A number that `strconv.ParseUint` takes: no sign and 64 bits. -/
def Numeral.uint64 (numeral : Numeral) : Option UInt64 :=
  if numeral.isWhole && !numeral.negative && decide (numeral.wholeValue < 2 ^ 64) then
    some (.ofNat numeral.wholeValue.toNat)
  else none

/-- `Number.Float64`. -/
def Numeral.float64 (numeral : Numeral) : Option ℚ := Double.nearest numeral.exact

/-! ## Values -/

inductive Tree
  | null
  | bool (value : Bool)
  | number (numeral : Numeral)
  | str (text : Line)
  | list (items : List Tree)
  | dict (fields : List (Line × Tree))

def constants : List (Line × Tree) :=
  [("null".toList, .null), ("true".toList, .bool true), ("false".toList, .bool false)]

def scanAtom (chars : Line) : Option (Tree × Line) :=
  match constants.find? fun constant => constant.1.isPrefixOf chars with
  | some (name, tree) => some (tree, chars.drop name.length)
  | none => (scanNumeral chars).map fun (numeral, rest) => (.number numeral, rest)

/- `steps` bounds the work and never runs out. `depth` is how many more lists and objects are
read in one another. -/
mutual

def scanValue (steps depth : Nat) (chars : Line) : Option (Tree × Line) :=
  match steps with
  | 0 => none
  | steps + 1 =>
      match chars with
      | '"' :: rest => (scanString none rest).map fun (text, rest) => (.str text, rest)
      | '[' :: rest =>
          match depth with
          | 0 => none
          | depth + 1 =>
              match skip rest with
              | ']' :: rest => some (.list [], rest)
              | rest => (scanItems steps depth rest).map fun (items, rest) => (.list items, rest)
      | '\x7b' :: rest =>
          match depth with
          | 0 => none
          | depth + 1 =>
              match skip rest with
              | '\x7d' :: rest => some (.dict [], rest)
              | rest => (scanFields steps depth rest).map fun (fields, rest) =>
                  (.dict fields, rest)
      | chars => scanAtom chars

def scanItems (steps depth : Nat) (chars : Line) : Option (List Tree × Line) :=
  match steps with
  | 0 => none
  | steps + 1 => do
      let (tree, rest) ← scanValue steps depth chars
      match skip rest with
      | ',' :: rest => do
          let (items, rest) ← scanItems steps depth (skip rest)
          return (tree :: items, rest)
      | ']' :: rest => return ([tree], rest)
      | _ => none

def scanFields (steps depth : Nat) (chars : Line) : Option (List (Line × Tree) × Line) :=
  match steps with
  | 0 => none
  | steps + 1 =>
      match chars with
      | '"' :: rest => do
          let (name, rest) ← scanString none rest
          match skip rest with
          | ':' :: rest => do
              let (tree, rest) ← scanValue steps depth (skip rest)
              match skip rest with
              | ',' :: rest => do
                  let (fields, rest) ← scanFields steps depth (skip rest)
                  return ((name, tree) :: fields, rest)
              | '\x7d' :: rest => return ([(name, tree)], rest)
              | _ => none
          | _ => none
      | _ => none

end

def maxNestingDepth : Nat := 10000

/-- One value, which nests up to `depth`, and nothing but space around it. -/
def parseWithin (depth : Nat) (text : Line) : Option Tree := do
  let chars := skip text
  let (tree, rest) ← scanValue (2 * chars.length + 1) depth chars
  match skip rest with
  | [] => return tree
  | _ => none

def parse : Line → Option Tree := parseWithin maxNestingDepth

/-! ## Fields of a struct -/

/-- Names are compared without regard to case. -/
def foldRune (char : Char) : Char :=
  if char = .ofNat 0x17F then 's'
  else if char = .ofNat 0x212A then 'k'
  else char.toLower

def sameName (field : String) (name : Line) : Bool :=
  name.map foldRune = field.toList.map foldRune

/-- An integer field; `null` leaves it as it is. -/
def readInt (tree : Tree) (current : Int) : Option Int :=
  match tree with
  | .null => some current
  | .number numeral => numeral.int64
  | _ => none

def readUint (tree : Tree) (current : UInt64) : Option UInt64 :=
  match tree with
  | .null => some current
  | .number numeral => numeral.uint64
  | _ => none

def readReal (tree : Tree) (current : ℚ) : Option ℚ :=
  match tree with
  | .null => some current
  | .number numeral => numeral.float64
  | _ => none

end Homelab.GoJson
