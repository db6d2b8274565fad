import Homelab.Foundation.Base64
import Homelab.Foundation.Json
import Homelab.Foundation.Utf8

/-! # Encoded words in a header

RFC 2047: `=?charset?encoding?text?=` stands for other characters. The blanks between two such
words are left out, and everything else stands for itself. Words of any length are read.
-/

namespace Homelab.EncodedWord

open Text

/-- The bytes of a text in the encoding `Q`. -/
def quoted : Line → Option Line
  | [] => some []
  | char :: rest =>
      if char = '_' then (quoted rest).map (' ' :: ·)
      else if char = '=' then
        match rest with
        | high :: low :: rest => do
            let high ← Json.hexDigit high
            let low ← Json.hexDigit low
            let more ← quoted rest
            some (.ofNat (high * 16 + low) :: more)
        | _ => none
      else if 32 ≤ char.toNat ∧ char.toNat < 127 then (quoted rest).map (char :: ·)
      else none

def bytes (encoding : Char) (text : Line) : Option Line :=
  if encoding = 'B' ∨ encoding = 'b' then Base64.decode text
  else if encoding = 'Q' ∨ encoding = 'q' then quoted text
  else none

/-- What the bytes spell in the charsets every reader knows. -/
def spelled (charset bytes : Line) : Option Line :=
  let charset := String.ofList (charset.map Char.toLower)
  if charset = "utf-8" then Utf8.decode bytes
  else if charset = "iso-8859-1" then some bytes
  else if charset = "us-ascii" then if Utf8.Ascii bytes then some bytes else none
  else none

def word : Line → Option (Line × Line)
  | '=' :: '?' :: rest => do
      let (charset, rest) ← cutAt ['?'] rest
      match rest with
      | encoding :: '?' :: rest => do
          let (text, rest) ← cutAt ['?', '='] rest
          let own ← bytes encoding text
          let text ← spelled charset own
          some (text, rest)
      | _ => none
  | _ => none

/-- The text that is left, after a word and the blanks `gap` if there is one before it. -/
def scan : Nat → Option Line → Line → Line
  | 0, gap, chars => gap.getD [] ++ chars
  | _ + 1, gap, [] => gap.getD []
  | steps + 1, gap, char :: rest =>
      match word (char :: rest) with
      | some (text, rest) => text ++ scan steps (some []) rest
      | none =>
          match gap with
          | none => char :: scan steps none rest
          | some gap =>
              if Json.isSpace char then scan steps (some (gap ++ [char])) rest
              else gap ++ char :: scan steps none rest

def decode (header : Line) : Line := scan header.length none header

example : decode "=?utf-8?q?=C5=9F?= =?US-ASCII?B?YQ==?= b".toList = "şa b".toList := by
  decide +kernel

/-- A word begins somewhere in the header. -/
def Occurs (header : Line) : Prop := ∃ rest ∈ header.tails, (word rest).isSome

instance (header : Line) : Decidable (Occurs header) := inferInstanceAs (Decidable (∃ _ ∈ _, _))

/-! ## Lengths -/

theorem length_quoted {text own : Line} (read : quoted text = some own) :
    own.length ≤ text.length := by
  fun_induction quoted text generalizing own with
  | case1 =>
      cases read
      exact Nat.le_refl _
  | case2 rest induction =>
      rcases Option.map_eq_some_iff.mp read with ⟨more, equal, same⟩
      cases same
      exact Nat.succ_le_succ (induction equal)
  | case3 high low rest other induction =>
      simp only [Option.bind_eq_bind, Option.bind_eq_some_iff] at read
      rcases read with ⟨_, _, _, _, more, equal, same⟩
      cases same
      have later := induction equal
      simp only [List.length_cons]
      omega
  | case4 => cases read
  | case5 char rest other differs visible induction =>
      rcases Option.map_eq_some_iff.mp read with ⟨more, equal, same⟩
      cases same
      exact Nat.succ_le_succ (induction equal)
  | case6 => cases read

theorem length_bytes {encoding : Char} {text own : Line} (read : bytes encoding text = some own) :
    own.length ≤ text.length := by
  rw [bytes] at read
  split at read
  · exact Base64.length_decode read
  split at read
  · exact length_quoted read
  · cases read

theorem length_spelled {charset own text : Line} (read : spelled charset own = some text) :
    text.length ≤ own.length := by
  rw [spelled] at read
  split at read
  · exact Utf8.length_decode read
  split at read
  · cases read
    exact Nat.le_refl _
  split at read
  · split at read
    · cases read
      exact Nat.le_refl _
    · cases read
  · cases read

/-- A word is longer than what it stands for. -/
theorem length_word {chars text rest : Line} (read : word chars = some (text, rest)) :
    text.length + rest.length < chars.length := by
  rw [word.eq_def] at read
  split at read
  · next own =>
      simp only [Option.bind_eq_bind, Option.bind_eq_some_iff] at read
      rcases read with ⟨⟨charset, after⟩, first, read⟩
      split at read
      · next more equal =>
          cases equal
          simp only [Option.bind_eq_some_iff] at read
          rcases read with ⟨⟨inner, last⟩, second, own, decoded, spelt, named, same⟩
          cases same
          have one := congrArg List.length (cutAt_parts first)
          have two := congrArg List.length (cutAt_parts second)
          have three : own.length ≤ inner.length := length_bytes decoded
          have four := length_spelled named
          simp only [List.length_append, List.length_cons, List.length_nil] at one two ⊢
          omega
      · cases read
  · cases read

/-! ## What is left as it is -/

theorem occurs_cons {char : Char} {rest : Line} :
    Occurs (char :: rest) ↔ (word (char :: rest)).isSome ∨ Occurs rest := by
  simp [Occurs]

theorem scan_cons (steps : Nat) (gap : Option Line) (char : Char) (rest : Line) :
    scan (steps + 1) gap (char :: rest) =
      match word (char :: rest) with
      | some (text, rest) => text ++ scan steps (some []) rest
      | none =>
          match gap with
          | none => char :: scan steps none rest
          | some gap =>
              if Json.isSpace char then scan steps (some (gap ++ [char])) rest
              else gap ++ char :: scan steps none rest := rfl

theorem scan_literal (steps : Nat) (gap : Option Line) {chars : Line} (literal : ¬Occurs chars) :
    scan steps gap chars = gap.getD [] ++ chars := by
  induction steps generalizing gap chars with
  | zero => rfl
  | succ steps induction =>
      cases chars with
      | nil => simp [scan]
      | cons char rest =>
          rw [occurs_cons, not_or] at literal
          have none_here : word (char :: rest) = none := Option.not_isSome_iff_eq_none.mp literal.1
          rw [scan_cons, none_here]
          simp only
          cases gap with
          | none =>
              rw [induction none literal.2]
              rfl
          | some gap =>
              simp only
              split
              · rw [induction _ literal.2]
                simp
              · rw [induction _ literal.2]
                rfl

theorem scan_length (steps : Nat) (gap : Option Line) (chars : Line) :
    (scan steps gap chars).length ≤ (gap.getD []).length + chars.length := by
  induction steps generalizing gap chars with
  | zero => simp [scan]
  | succ steps induction =>
      cases chars with
      | nil => simp [scan]
      | cons char rest =>
          rw [scan_cons]
          split
          · next text after read =>
              have shorter := length_word read
              have later := induction (some []) after
              simp only [Option.getD_some, List.length_nil] at later
              rw [List.length_append]
              omega
          · split
            · have later := induction none rest
              simpa using later
            · next gap =>
                split
                · have later := induction (some (gap ++ [char])) rest
                  simp only [Option.getD_some, List.length_append, List.length_cons,
                    List.length_nil] at later ⊢
                  omega
                · have later := induction none rest
                  simp only [Option.getD_some, Option.getD_none, List.length_append,
                    List.length_cons, List.length_nil] at later ⊢
                  omega

/-- Where a word begins, the text gets shorter. -/
theorem scan_shorter {steps : Nat} (gap : Option Line) {chars : Line} (occurs : Occurs chars)
    (enough : chars.length ≤ steps) :
    (scan steps gap chars).length < (gap.getD []).length + chars.length := by
  induction steps generalizing gap chars with
  | zero =>
      rw [List.length_eq_zero_iff.mp (Nat.le_zero.mp enough)] at occurs
      exact absurd occurs (by decide)
  | succ steps induction =>
      cases chars with
      | nil => exact absurd occurs (by decide)
      | cons char rest =>
          rw [occurs_cons] at occurs
          have enough : rest.length ≤ steps := Nat.le_of_succ_le_succ enough
          rw [scan_cons]
          split
          · next text after read =>
              have shorter := length_word read
              have later := scan_length steps (some []) after
              simp only [Option.getD_some, List.length_nil] at later
              rw [List.length_append]
              omega
          · next none_here =>
              have occurs : Occurs rest := occurs.resolve_left (by simp [none_here])
              split
              · have later := induction none occurs enough
                simpa using later
              · next gap =>
                  split
                  · have later := induction (some (gap ++ [char])) occurs enough
                    simp only [Option.getD_some, List.length_append, List.length_cons,
                      List.length_nil] at later ⊢
                    omega
                  · have later := induction none occurs enough
                    simp only [Option.getD_some, Option.getD_none, List.length_append,
                      List.length_cons, List.length_nil] at later ⊢
                    omega

/-- A header stands for itself exactly where no word begins in it. -/
theorem decode_eq_self_iff {header : Line} : decode header = header ↔ ¬Occurs header := by
  constructor
  · intro same occurs
    have shorter := scan_shorter none occurs (Nat.le_refl _)
    rw [← decode, same] at shorter
    simp at shorter
  · intro literal
    rw [decode, scan_literal _ _ literal]
    rfl

/-! ## The word of a text -/

theorem decode_word {header text : Line} (read : word header = some (text, [])) :
    decode header = text := by
  cases header with
  | nil => cases read
  | cons char rest =>
      rw [decode, List.length_cons, scan, read]
      cases rest <;> simp [scan]

/-- The word that Base64 makes of the bytes of a text. -/
def ofText (text : Line) : Line :=
  ['=', '?', 'U', 'T', 'F', '-', '8', '?', 'B', '?'] ++ Base64.encode (Utf8.encode text) ++
    ['?', '=']

theorem word_ofText (text : Line) : word (ofText text) = some (text, []) := by
  have clear : '?' ∉ Base64.encode (Utf8.encode text) := fun member =>
    (Base64.encode_letters (Utf8.bytes_encode text) _ member).ne_question rfl
  have named : cutAt ['?'] (['U', 'T', 'F', '-', '8'] ++ ['?'] ++
      'B' :: '?' :: (Base64.encode (Utf8.encode text) ++ ['?', '='])) = some (_, _) :=
    cutAt_clear (by decide) _
  have inner : cutAt ['?', '='] (Base64.encode (Utf8.encode text) ++ ['?', '='] ++ []) =
      some (_, _) := cutAt_clear clear []
  rw [List.append_nil] at inner
  have utf8 : spelled ['U', 'T', 'F', '-', '8'] (Utf8.encode text) = some text := by
    rw [spelled, if_pos (by decide)]
    exact Utf8.decode_encode text
  have own : bytes 'B' (Base64.encode (Utf8.encode text)) = some (Utf8.encode text) := by
    rw [bytes, if_pos (.inl rfl)]
    exact Base64.decode_encode (Utf8.bytes_encode text)
  have whole : ofText text = '=' :: '?' :: (['U', 'T', 'F', '-', '8'] ++ ['?'] ++
      'B' :: '?' :: (Base64.encode (Utf8.encode text) ++ ['?', '='])) := by
    simp [ofText]
  rw [whole, word, named]
  simp only [Option.bind_eq_bind, Option.bind_some]
  rw [inner]
  simp only [Option.bind_some, own, utf8]

/-- Every text is what its word stands for. -/
theorem decode_ofText (text : Line) : decode (ofText text) = text := decode_word (word_ofText text)

end Homelab.EncodedWord
