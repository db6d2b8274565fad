import Homelab.Foundation.Json
import Homelab.Foundation.Utf8

/-! # Text as Go sees it

A file is bytes, one to a character. Where they are no UTF-8, each byte is a rune of its own,
U+FFFD.
-/

namespace Homelab.GoText

open Text

/-! ## Runes -/

def runeError : Char := .ofNat 0xFFFD

def single (bytes : Line) : Option Char :=
  match Utf8.decode bytes with
  | some [char] => some char
  | _ => none

/-- `utf8.DecodeRune`: the rune, and how many bytes it takes after the first one. -/
def decodeRune (bytes : Line) : Char × Nat :=
  match single (bytes.take 1), single (bytes.take 2), single (bytes.take 3),
    single (bytes.take 4) with
  | some char, _, _, _ => (char, 0)
  | none, some char, _, _ => (char, 1)
  | none, none, some char, _ => (char, 2)
  | none, none, none, some char => (char, 3)
  | none, none, none, none => (runeError, 0)

/-- `skip` counts the bytes of the current rune that are still to come. -/
def runesFrom (skip : Nat) : Line → Line
  | [] => []
  | byte :: rest =>
      match skip with
      | skip + 1 => runesFrom skip rest
      | 0 =>
          let (rune, width) := decodeRune (byte :: rest)
          rune :: runesFrom width rest

def runes (bytes : Line) : Line := runesFrom 0 bytes

example : runes [.ofNat 0xC5, .ofNat 0x9F, .ofNat 0xC5, 'a'] = ['ş', runeError, 'a'] := by decide

theorem decodeRune_ascii {byte : Char} (small : byte.toNat < 128) (rest : Line) :
    decodeRune (byte :: rest) = (byte, 0) := by
  have decoded : Utf8.decode [byte] = some [byte] := Utf8.decode_ascii (by simpa [Utf8.Ascii])
  have alone : single ((byte :: rest).take 1) = some byte := by
    simp [single, decoded]
  rw [decodeRune, alone]

theorem runes_ascii {bytes : Line} (ascii : Utf8.Ascii bytes) : runes bytes = bytes := by
  rw [runes]
  induction bytes with
  | nil => rfl
  | cons byte rest induction =>
      simp only [runesFrom, decodeRune_ascii (ascii byte List.mem_cons_self)]
      rw [induction fun other member => ascii other (List.mem_cons_of_mem _ member)]

/-- The bytes of the character that is being read: none before the last one completes it. -/
structure Completes (pending : Utf8.Pending) (bytes : Line) (char : Char) : Prop where
  length : bytes.length = pending.left + 1
  last : Utf8.run (some pending) bytes = some (none, [char])
  before : ∀ count, count < bytes.length → ∃ later,
    Utf8.run (some pending) (bytes.take count) = some (some later, [])

theorem run_outside {pending : Utf8.Pending} {byte : Char}
    (outside : ¬(pending.low ≤ byte.toNat ∧ byte.toNat ≤ pending.high)) (rest : Line) :
    Utf8.run (some pending) (byte :: rest) = none := by
  rw [Utf8.run, Utf8.step, if_neg outside]

theorem run_pending {pending : Utf8.Pending} {bytes text : Line}
    (done : Utf8.run (some pending) bytes = some (none, text)) :
    ∃ own rest char more, bytes = own ++ rest ∧ text = char :: more ∧
      Completes pending own char ∧ Utf8.run none rest = some (none, more) := by
  induction count : pending.left generalizing pending bytes text with
  | zero =>
      rcases bytes with _ | ⟨byte, rest⟩
      · cases done
      by_cases bounds : pending.low ≤ byte.toNat ∧ byte.toNat ≤ pending.high
      · rw [Utf8.run, Utf8.step, if_pos bounds, count] at done
        rcases Option.map_eq_some_iff.mp done with ⟨⟨next, more⟩, ran, same⟩
        cases same
        refine ⟨[byte], rest, _, more, rfl, rfl, ⟨by simp [count], ?_, ?_⟩, ran⟩
        · rw [Utf8.run, Utf8.step, if_pos bounds, count]
          rfl
        · intro size short
          rw [List.length_singleton] at short
          rw [show size = 0 by omega]
          exact ⟨pending, rfl⟩
      · rw [run_outside bounds] at done
        cases done
  | succ left induction =>
      rcases bytes with _ | ⟨byte, rest⟩
      · cases done
      by_cases bounds : pending.low ≤ byte.toNat ∧ byte.toNat ≤ pending.high
      · let next : Utf8.Pending := ⟨left, pending.code * 64 + (byte.toNat - 128), 0x80, 0xBF⟩
        have stepped : ∀ bytes, Utf8.run (some pending) (byte :: bytes) =
            Utf8.run (some next) bytes := by
          intro bytes
          rw [Utf8.run, Utf8.step, if_pos bounds, count]
          show Option.map _ (Utf8.run (some next) bytes) = _
          cases Utf8.run (some next) bytes <;> rfl
        rw [stepped] at done
        rcases induction done rfl with ⟨others, after, char, more, rfl, rfl, completes, later⟩
        refine ⟨byte :: others, after, char, more, rfl, rfl, ⟨?_, ?_, ?_⟩, later⟩
        · rw [List.length_cons, completes.length, count]
        · rw [stepped, completes.last]
        · intro size short
          cases size with
          | zero => exact ⟨pending, rfl⟩
          | succ size =>
              rw [List.take_succ_cons, stepped]
              exact completes.before size (Nat.lt_of_succ_lt_succ short)
      · rw [run_outside bounds] at done
        cases done

theorem run_lead {byte : Char} {pending : Utf8.Pending} (large : ¬byte.toNat < 128)
    (found : Utf8.lead byte.toNat = some pending) (rest : Line) :
    Utf8.run none (byte :: rest) = Utf8.run (some pending) rest := by
  rw [Utf8.run, Utf8.step, if_neg large, found]
  show Option.map _ (Utf8.run (some pending) rest) = _
  cases Utf8.run (some pending) rest <;> rfl

theorem lead_left {byte : Nat} {pending : Utf8.Pending} (found : Utf8.lead byte = some pending) :
    pending.left ≤ 2 := by
  rw [Utf8.lead] at found
  repeat' split at found
  all_goals cases found <;> exact Nat.le_of_ble_eq_true rfl

/-- A text begins with a character, whose first bytes are none. -/
theorem decode_cons {byte : Char} {rest text : Line}
    (decoded : Utf8.decode (byte :: rest) = some text) :
    ∃ width char more, width < 4 ∧ width ≤ rest.length ∧ text = char :: more ∧
      single ((byte :: rest).take (width + 1)) = some char ∧
      (∀ size, size < width → single ((byte :: rest).take (size + 1)) = none) ∧
      Utf8.decode (rest.drop width) = some more := by
  have decodes : ∀ {bytes : Line} {char : Char}, Utf8.run none bytes = some (none, [char]) →
      single bytes = some char := by
    intro bytes char ran
    rw [single, Utf8.decode_eq_some.mpr ran]
  rw [Utf8.decode_eq_some] at decoded
  by_cases small : byte.toNat < 128
  · rw [Utf8.run, Utf8.step, if_pos small] at decoded
    rcases Option.map_eq_some_iff.mp decoded with ⟨⟨next, more⟩, ran, same⟩
    cases same
    refine ⟨0, byte, more, by decide, Nat.zero_le _, rfl, decodes ?_, by simp,
      Utf8.decode_eq_some.mpr ran⟩
    rw [List.take_succ_cons, List.take_zero, Utf8.run, Utf8.step, if_pos small]
    rfl
  · cases found : Utf8.lead byte.toNat with
    | none =>
        rw [Utf8.run, Utf8.step, if_neg small, found] at decoded
        cases decoded
    | some pending =>
        have few := lead_left found
        rw [run_lead small found] at decoded
        rcases run_pending decoded with ⟨own, after, char, more, rfl, rfl, completes, later⟩
        have size := completes.length
        refine ⟨own.length, char, more, by omega, by simp, rfl, decodes ?_, ?_, ?_⟩
        · rw [List.take_succ_cons, List.take_left, run_lead small found, completes.last]
        · intro size short
          rcases completes.before size short with ⟨pending', before⟩
          rw [List.take_succ_cons, List.take_append_of_le_length (Nat.le_of_lt short), single,
            Utf8.decode, run_lead small found, before]
        · rw [List.drop_left, Utf8.decode_eq_some.mpr later]

theorem runesFrom_skip (skip : Nat) (bytes : Line) :
    runesFrom skip bytes = runesFrom 0 (bytes.drop skip) := by
  induction bytes generalizing skip with
  | nil => simp [runesFrom]
  | cons byte rest induction =>
      cases skip with
      | zero => rfl
      | succ skip =>
          rw [runesFrom, induction]
          rfl

theorem decodeRune_of_single {bytes : Line} {width : Nat} {char : Char} (few : width < 4)
    (own : single (bytes.take (width + 1)) = some char)
    (before : ∀ size, size < width → single (bytes.take (size + 1)) = none) :
    decodeRune bytes = (char, width) := by
  rw [decodeRune]
  rcases width with _ | _ | _ | _ | width
  · rw [own]
  · rw [before 0 (by decide), own]
  · rw [before 0 (by decide), before 1 (by decide), own]
  · rw [before 0 (by decide), before 1 (by decide), before 2 (by decide), own]
  · exact absurd few (by omega)

/-- Where the bytes are text, the runes are its characters. -/
theorem runes_decode {bytes text : Line} (decoded : Utf8.decode bytes = some text) :
    runes bytes = text := by
  rw [runes]
  induction size : bytes.length using Nat.strong_induction_on generalizing bytes text with
  | _ size induction =>
      cases bytes with
      | nil =>
          cases decoded
          rfl
      | cons byte rest =>
          rcases decode_cons decoded with ⟨width, char, more, few, _, rfl, own, before, later⟩
          rw [List.length_cons] at size
          have rest' :=
            induction (rest.drop width).length (by rw [List.length_drop]; omega) later rfl
          have rune := decodeRune_of_single few own before
          rw [runesFrom, rune]
          simp only
          rw [runesFrom_skip, rest']

/-! ## White space -/

/-- `unicode.IsSpace`. -/
def isSpace (char : Char) : Bool :=
  let code := char.toNat
  (9 ≤ code && code ≤ 13) || code = 0x20 || code = 0x85 || code = 0xA0 || code = 0x1680 ||
    (0x2000 ≤ code && code ≤ 0x200A) || code = 0x2028 || code = 0x2029 || code = 0x202F ||
    code = 0x205F || code = 0x3000

/-- `strings.TrimSpace`. -/
def trimSpace (text : Line) : Line :=
  ((text.dropWhile isSpace).reverse.dropWhile isSpace).reverse

/-- A visible rune is not trimmed away. -/
theorem trimSpace_ne_nil {text : Line} {char : Char} (member : char ∈ text)
    (visible : isSpace char = false) : trimSpace text ≠ [] := by
  have kept : ∀ {line : Line}, char ∈ line → char ∈ line.dropWhile isSpace := by
    intro line member
    induction line with
    | nil => cases member
    | cons first rest induction =>
        by_cases space : isSpace first = true
        · rw [List.dropWhile_cons_of_pos space]
          apply induction
          rcases List.mem_cons.mp member with same | later
          · rw [same, space] at visible
            cases visible
          · exact later
        · rwa [List.dropWhile_cons_of_neg space]
  have last := kept (List.mem_reverse.mpr (kept member))
  exact List.ne_nil_of_mem (List.mem_reverse.mpr last)

/-- A text that begins with a visible rune still does. -/
theorem trimSpace_head {char : Char} (visible : isSpace char = false) (rest : Line) :
    (trimSpace (char :: rest)).head? = some char := by
  have stays : ¬isSpace char = true := by simp [visible]
  rw [trimSpace, List.dropWhile_cons_of_neg stays, List.reverse_cons, List.dropWhile_append]
  split
  · rw [List.dropWhile_cons_of_neg stays]
    rfl
  · simp

/-! ## Numbers -/

/-- What `strconv.ParseInt(text, 10, 64)` returns. Past the range it is the last number in
it, and an error. -/
inductive Parsed
  | number (value : Int)
  | syntaxError
  | rangeError (last : Int)
deriving DecidableEq

/-- The digits of `strconv.ParseUint`, which stops where the number leaves 64 bits. -/
def parseUint (value : Nat) : Line → Except Parsed Nat
  | [] => .ok value
  | char :: rest =>
      if char.isDigit then
        let value := value * 10 + (char.toNat - 48)
        if value < 2 ^ 64 then parseUint value rest else .error (.rangeError (2 ^ 64 - 1))
      else .error .syntaxError

def parseSigned (negative : Bool) (digits : Line) : Parsed :=
  if digits = [] then .syntaxError
  else
    match parseUint 0 digits with
    | .error .syntaxError => .syntaxError
    | .error _ => .rangeError (if negative then -2 ^ 63 else 2 ^ 63 - 1)
    | .ok value =>
        if negative then
          if value ≤ 2 ^ 63 then .number (-value) else .rangeError (-2 ^ 63)
        else if value < 2 ^ 63 then .number value
        else .rangeError (2 ^ 63 - 1)

def parseInt : Line → Parsed
  | '-' :: digits => parseSigned true digits
  | '+' :: digits => parseSigned false digits
  | digits => parseSigned false digits

theorem parseInt_signed (text : Line) :
    ∃ negative digits, parseInt text = parseSigned negative digits := by
  rw [parseInt.eq_def]
  split
  · exact ⟨true, _, rfl⟩
  · exact ⟨false, _, rfl⟩
  · exact ⟨false, _, rfl⟩

theorem parseSigned_number {negative : Bool} {digits : Line} {value : Int}
    (parsed : parseSigned negative digits = .number value) : -2 ^ 63 ≤ value ∧ value < 2 ^ 63 := by
  rw [parseSigned] at parsed
  split at parsed
  · cases parsed
  split at parsed
  · cases parsed
  · cases parsed
  split at parsed
  · split at parsed
    · cases parsed
      omega
    · cases parsed
  split at parsed
  · cases parsed
    omega
  · cases parsed

theorem parseSigned_range {negative : Bool} {digits : Line} {last : Int}
    (parsed : parseSigned negative digits = .rangeError last) :
    last = 2 ^ 63 - 1 ∨ last = -2 ^ 63 := by
  rw [parseSigned] at parsed
  split at parsed
  · cases parsed
  split at parsed
  · cases parsed
  · cases parsed
    split
    · exact .inr rfl
    · exact .inl rfl
  split at parsed
  · split at parsed
    · cases parsed
    · cases parsed
      exact .inr rfl
  split at parsed
  · cases parsed
  · cases parsed
    exact .inl rfl

/-- What the caller has who looks at the number only. -/
def Parsed.value : Parsed → Int
  | .number value => value
  | .syntaxError => 0
  | .rangeError last => last

example : parseInt ['-', '1', '2'] = .number (-12) := by decide

/-- `int64`. -/
def wrap (value : Int) : Int := value.bmod (2 ^ 64)

def InInt64 (value : Int) : Prop := -2 ^ 63 ≤ value ∧ value < 2 ^ 63

instance (value : Int) : Decidable (InInt64 value) := inferInstanceAs (Decidable (_ ∧ _))

theorem wrap_of_inInt64 {value : Int} (fits : InInt64 value) : wrap value = value := by
  rcases fits with ⟨low, high⟩
  rw [wrap, Int.bmod_eq_of_le] <;> omega

theorem parseInt_number {text : Line} {value : Int} (parsed : parseInt text = .number value) :
    InInt64 value := by
  rcases parseInt_signed text with ⟨negative, digits, same⟩
  rw [same] at parsed
  exact parseSigned_number parsed

theorem parseInt_range {text : Line} {last : Int} (parsed : parseInt text = .rangeError last) :
    last = 2 ^ 63 - 1 ∨ last = -2 ^ 63 := by
  rcases parseInt_signed text with ⟨negative, digits, same⟩
  rw [same] at parsed
  exact parseSigned_range parsed

end Homelab.GoText
