import Homelab.Foundation.Lines

/-! # Regular expressions

`re.search` for the constructs the scripts use, with `re.IGNORECASE`.
-/

namespace Homelab

open Text

inductive Pattern
  | char (accepts : Char → Bool)
  | empty
  | seq (first second : Pattern)
  | alt (first second : Pattern)
  /-- One or more characters. -/
  | many (accepts : Char → Bool)
  /-- Between a word and something else. -/
  | boundary

namespace Pattern

def text (chars : String) : Pattern :=
  chars.toList.foldr (fun head rest => seq (char fun own => foldCase own = foldCase head) rest)
    empty

def anyOf : List Pattern → Pattern
  | [] => char fun _ => false
  | [pattern] => pattern
  | pattern :: others => alt pattern (anyOf others)

def all (patterns : List Pattern) : Pattern := patterns.foldr seq empty

def optional (pattern : Pattern) : Pattern := alt pattern empty

def digits : Pattern := many isDecimal

def visible : Pattern := many fun own => !isSpace own

def isWord (own : Char) : Bool := isAlnum own || own = '_'

/-- What may be left after one or more accepted characters, each with the character
before it. -/
def leftovers (accepts : Char → Bool) : Line → List (Option Char × Line)
  | [] => []
  | head :: rest =>
      if accepts head then (some head, rest) :: leftovers accepts rest else []

/-- Every way the pattern can take characters off the line. -/
def ways : Pattern → Option Char × Line → List (Option Char × Line)
  | .char accepts, (_, line) =>
      match line with
      | head :: rest => if accepts head then [(some head, rest)] else []
      | [] => []
  | .empty, place => [place]
  | .seq first second, place => (ways first place).flatMap (ways second)
  | .alt first second, place => ways first place ++ ways second place
  | .many accepts, (_, line) => leftovers accepts line
  | .boundary, (before, line) =>
      if before.any isWord = line.head?.any isWord then [] else [(before, line)]

def searchFrom (pattern : Pattern) (before : Option Char) : Line → Bool
  | [] => !(pattern.ways (before, [])).isEmpty
  | head :: rest =>
      !(pattern.ways (before, head :: rest)).isEmpty || searchFrom pattern (some head) rest

/-- `pattern.search(line)`. -/
def search (pattern : Pattern) (line : Line) : Bool := searchFrom pattern none line

end Pattern

end Homelab
