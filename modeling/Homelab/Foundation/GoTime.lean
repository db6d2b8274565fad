import Homelab.Foundation.Json

/-! # Instants as Go reads them

`Time.UnmarshalJSON`: a quoted text in the format of RFC 3339, where an hour may have one digit
and a comma may stand for the point. An instant is the nanoseconds since 1970.
-/

namespace Homelab.GoTime

open Text

def getnum (width : Nat) (text : Line) : Option (Nat × Line) :=
  if (text.take width).length = width ∧ (text.take width).all Char.isDigit then
    some (Json.natOf (text.take width), text.drop width)
  else none

def prefixMark (mark : Char) : Line → Option Line
  | char :: rest => if char = mark then some rest else none
  | [] => none

def isLeap (year : Nat) : Bool := year % 4 = 0 && (year % 100 ≠ 0 || year % 400 = 0)

def daysIn (month year : Nat) : Nat :=
  if month = 2 then if isLeap year then 29 else 28
  else if month ∈ [4, 6, 9, 11] then 30
  else 31

/-- The days before a year, from the year 0 on. -/
def daysBefore (year : Nat) : Nat :=
  365 * year + (year + 3) / 4 - (year + 99) / 100 + (year + 399) / 400

def daysOf (year month day : Nat) : Nat :=
  daysBefore year + ((List.range (month - 1)).map fun before => daysIn (before + 1) year).sum +
    (day - 1)

def parseDate (text : Line) : Option (Int × Line) := do
  let (year, rest) ← getnum 4 text
  let (month, rest) ← getnum 2 (← prefixMark '-' rest)
  let (day, rest) ← getnum 2 (← prefixMark '-' rest)
  if 1 ≤ month ∧ month ≤ 12 ∧ 1 ≤ day ∧ day ≤ daysIn month year then
    return (daysOf year month day - daysOf 1970 1 1, rest)
  else none

/-- The time of a day, in seconds. -/
def parseClock (text : Line) : Option (Int × Line) := do
  let (hour, rest) ← (getnum 2 text).or (getnum 1 text)
  let (minute, rest) ← getnum 2 (← prefixMark ':' rest)
  let (second, rest) ← getnum 2 (← prefixMark ':' rest)
  if hour < 24 ∧ minute < 60 ∧ second < 60 then
    return (hour * 3600 + minute * 60 + second, rest)
  else none

/-- The part of a second, in nanoseconds. What is smaller is left out. -/
def parseNanoseconds (text : Line) : Int × Line :=
  match text with
  | mark :: rest =>
      if mark = '.' ∨ mark = ',' then
        match rest.span Char.isDigit with
        | ([], _) => (0, text)
        | (digits, rest) =>
            (Json.natOf (digits.take 9) * 10 ^ (9 - (digits.take 9).length), rest)
      else (0, text)
  | [] => (0, [])

/-- How far the time is ahead of UTC, in seconds. -/
def parseZone (text : Line) : Option Int :=
  match text with
  | ['Z'] => some 0
  | sign :: rest => do
      let (hours, rest) ← getnum 2 rest
      let (minutes, rest) ← getnum 2 (← prefixMark ':' rest)
      if rest = [] ∧ hours ≤ 24 ∧ minutes ≤ 60 then
        if sign = '+' then return ((hours * 60 + minutes) * 60 : Nat)
        else if sign = '-' then return - ((hours * 60 + minutes) * 60 : Nat)
        else none
      else none
  | [] => none

def parseRFC3339 (text : Line) : Option Int := do
  let (days, rest) ← parseDate text
  let (seconds, rest) ← parseClock (← prefixMark 'T' rest)
  let (nanoseconds, rest) := parseNanoseconds rest
  let offset ← parseZone rest
  return (days * 86400 + seconds - offset) * 10 ^ 9 + nanoseconds

/-- `Time.UnmarshalJSON`, of a value that is not null, as it is spelled. -/
def unmarshal (spelled : Line) : Option Int :=
  if 2 ≤ spelled.length ∧ spelled.head? = some '"' ∧ spelled.getLast? = some '"' then
    parseRFC3339 (spelled.tail.dropLast)
  else none

example : unmarshal "\"2000-03-01T1:00:00,25+01:00\"".toList = some (951868800250000000) := by
  decide +kernel

end Homelab.GoTime
