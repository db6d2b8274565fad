import Homelab.Foundation.Lines
import Homelab.Foundation.Utf8

/-! # Addresses and their queries

`urlparse` and `parse_qs` of `urllib.parse`, on the characters of an address.
-/

namespace Homelab.Url

open Text

/-! ## Parts of an address -/

/-- `text.partition(mark)` for one character, without the mark. -/
def partition (mark : Char) (text : Line) : Line × Option Line :=
  match text.span (· ≠ mark) with
  | (front, []) => (front, none)
  | (front, _ :: rest) => (front, some rest)

/-- The characters that are stripped off the front, up to the space. -/
def isControl (char : Char) : Bool := char.toNat ≤ 32

/-- What is left of the address after the unsafe characters. -/
def cleaned (url : Line) : Line :=
  (url.dropWhile isControl).filter fun char => char ≠ '\t' ∧ char ≠ '\r' ∧ char ≠ '\n'

def isSchemeChar (char : Char) : Bool := char.isAlphanum || char = '+' || char = '-' || char = '.'

/-- The scheme, in small letters, and what follows its colon. -/
def splitScheme (url : Line) : Line × Line :=
  match partition ':' url with
  | (first :: more, some rest) =>
      if first.isAlpha && more.all isSchemeChar then ((first :: more).map Char.toLower, rest)
      else ([], url)
  | _ => ([], url)

/-- The network location, if there is one, and what follows it. -/
def splitNetloc (url : Line) : Line × Line :=
  match url with
  | '/' :: '/' :: rest => rest.span fun char => char ≠ '/' ∧ char ≠ '?' ∧ char ≠ '#'
  | _ => ([], url)

def usesParams : List String :=
  ["", "ftp", "hdl", "prospero", "http", "https", "shttp", "rtsp", "rtsps", "sip", "sips", "mms",
    "sftp", "tel"]

/-- `_splitparams(url)[0]`: the last segment ends at its first semicolon. -/
def withoutParams (path : Line) : Line :=
  let segment := path.reverse.takeWhile (· ≠ '/')
  let front := path.take (path.length - segment.length)
  front ++ (partition ';' segment.reverse).1

structure Parsed where
  path : Line
  query : Line
deriving DecidableEq

/-- `urlparse(url)`, its path and its query. `allowed` tells the network locations that are
not refused for their brackets or for the characters they are normalised to. -/
def urlparse (allowed : Line → Bool) (url : Line) : Option Parsed :=
  let (scheme, rest) := splitScheme (cleaned url)
  let (netloc, rest) := splitNetloc rest
  let (rest, _) := partition '#' rest
  let (path, query) := partition '?' rest
  if allowed netloc then
    some ⟨if .ofList scheme ∈ usesParams then withoutParams path else path, query.getD []⟩
  else none

example : urlparse (fun _ => true) "/logs;v=1?lines=5#end".toList =
    some ⟨"/logs".toList, "lines=5".toList⟩ := by decide

/-! ## Queries -/

def hexValue (char : Char) : Option Nat :=
  if char.isDigit then some (char.toNat - 48)
  else if 'a' ≤ char ∧ char ≤ 'f' then some (char.toNat - 87)
  else if 'A' ≤ char ∧ char ≤ 'F' then some (char.toNat - 55)
  else none

/-- `unquote_to_bytes`: an escape stands for its byte. -/
def unescape : Line → Line
  | '%' :: high :: low :: rest =>
      match hexValue high, hexValue low with
      | some high, some low => .ofNat (high * 16 + low) :: unescape rest
      | _, _ => '%' :: unescape (high :: low :: rest)
  | char :: rest => char :: unescape rest
  | [] => []

/-- What `errors="replace"` puts in the place of bytes that are no text. -/
def replacement : Char := .ofNat 0xFFFD

def decodeFrom (pending : Option Utf8.Pending) : Line → Line
  | [] => if pending.isSome then [replacement] else []
  | byte :: rest =>
      match Utf8.step pending byte with
      | some (pending, text) => text ++ decodeFrom pending rest
      | none =>
          match pending, Utf8.step none byte with
          | some _, some (pending, text) => replacement :: text ++ decodeFrom pending rest
          | some _, none => replacement :: replacement :: decodeFrom none rest
          | none, _ => replacement :: decodeFrom none rest

/-- `unquote(text)`: stretches of ASCII are decoded, what is between them stays. -/
def unquoteFrom (stretch : Line) : Line → Line
  | [] => decodeFrom none (unescape stretch)
  | char :: rest =>
      if char.toNat < 128 then unquoteFrom (stretch ++ [char]) rest
      else decodeFrom none (unescape stretch) ++ char :: unquoteFrom [] rest

def unquote (text : Line) : Line := unquoteFrom [] text

def plusToSpace (text : Line) : Line := text.map fun char => if char = '+' then ' ' else char

/-- A field of the query. One without a value is left out. -/
def queryField (field : Line) : Option (Line × Line) :=
  match partition '=' field with
  | (name, some (first :: more)) =>
      some (unquote (plusToSpace name), unquote (plusToSpace (first :: more)))
  | _ => none

def parseQsl (query : Line) : List (Line × Line) :=
  (splitChars '&' query).filterMap queryField

def param (name default : String) (query : Line) : Line :=
  ((parseQsl query).lookup name.toList).getD default.toList

example : param "token" "" "a=1&token=%41+b%C5%9F&token=c".toList = "A bş".toList := by
  decide

end Homelab.Url
