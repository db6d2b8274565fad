import Homelab.Foundation.Lines

/-! # Bytes in Base64

Three bytes, one to a character, are four letters of the alphabet. The last group is
filled up with `=`.
-/

namespace Homelab.Base64

open Text

def letter (value : Nat) : Char :=
  if value < 26 then .ofNat (65 + value)
  else if value < 52 then .ofNat (71 + value)
  else if value < 62 then .ofNat (value - 4)
  else if value = 62 then '+'
  else '/'

/-- The six bits a letter stands for. -/
def valueOf (char : Char) : Option Nat :=
  let code := char.toNat
  if 65 ≤ code ∧ code ≤ 90 then some (code - 65)
  else if 97 ≤ code ∧ code ≤ 122 then some (code - 71)
  else if 48 ≤ code ∧ code ≤ 57 then some (code + 4)
  else if code = 43 then some 62
  else if code = 47 then some 63
  else none

/-- `b64encode(bytes)`. -/
def encode : Line → Line
  | [] => []
  | [first] => [letter (first.toNat / 4), letter (first.toNat % 4 * 16), '=', '=']
  | [first, second] =>
      [letter (first.toNat / 4), letter (first.toNat % 4 * 16 + second.toNat / 16),
        letter (second.toNat % 16 * 4), '=']
  | first :: second :: third :: rest =>
      letter (first.toNat / 4) :: letter (first.toNat % 4 * 16 + second.toNat / 16) ::
        letter (second.toNat % 16 * 4 + third.toNat / 64) :: letter (third.toNat % 64) ::
          encode rest

def decode : Line → Option Line
  | [] => some []
  | first :: second :: third :: fourth :: rest => do
      let first ← valueOf first
      let second ← valueOf second
      let one := Char.ofNat (first * 4 + second / 16)
      if third = '=' then
        if fourth = '=' ∧ rest = [] then some [one] else none
      else
        let third ← valueOf third
        let two := Char.ofNat (second % 16 * 16 + third / 4)
        if fourth = '=' then
          if rest = [] then some [one, two] else none
        else
          let fourth ← valueOf fourth
          let more ← decode rest
          some (one :: two :: .ofNat (third % 4 * 64 + fourth) :: more)
  | _ => none

example : encode ['M', 'a', 'n', 'M'] = ['T', 'W', 'F', 'u', 'T', 'Q', '=', '='] := by decide

/-! ## The alphabet -/

theorem valueOf_letter {value : Nat} (small : value < 64) :
    valueOf (letter value) = some value := by
  have all : ∀ value : Fin 64, valueOf (letter value) = some value.val := by decide
  exact all ⟨value, small⟩

theorem letter_ne_fill {value : Nat} (small : value < 64) : letter value ≠ '=' := by
  intro equal
  have read := valueOf_letter small
  rw [equal] at read
  cases read

/-- The letters, and what fills up. -/
def Letter (char : Char) : Prop := (valueOf char).isSome ∨ char = '='

theorem letter_letter {value : Nat} (small : value < 64) : Letter (letter value) := by
  left
  rw [valueOf_letter small]
  rfl

theorem Letter.ascii {char : Char} (own : Letter char) : 32 < char.toNat ∧ char.toNat < 127 := by
  rcases own with read | rfl
  · rw [valueOf] at read
    split at read
    · omega
    split at read
    · omega
    split at read
    · omega
    split at read
    · omega
    split at read
    · omega
    · cases read
  · decide

theorem Letter.ne_question {char : Char} (own : Letter char) : char ≠ '?' := by
  rintro rfl
  rcases own with read | read
  · exact absurd read (by decide)
  · exact absurd read (by decide)

/-! ## The round trip -/

/-- Each character is one byte. -/
def Bytes (bytes : Line) : Prop := ∀ byte ∈ bytes, byte.toNat < 256

instance (bytes : Line) : Decidable (Bytes bytes) := inferInstanceAs (Decidable (∀ _ ∈ _, _))

theorem encode_letters {bytes : Line} (whole : Bytes bytes) :
    ∀ char ∈ encode bytes, Letter char := by
  fun_induction encode bytes with
  | case1 => simp
  | case2 first =>
      have one := whole first (by simp)
      simp only [List.mem_cons, List.not_mem_nil, or_false]
      rintro char (rfl | rfl | rfl | rfl)
      · exact letter_letter (by omega)
      · exact letter_letter (by omega)
      · exact .inr rfl
      · exact .inr rfl
  | case3 first second =>
      have one := whole first (by simp)
      have two := whole second (by simp)
      simp only [List.mem_cons, List.not_mem_nil, or_false]
      rintro char (rfl | rfl | rfl | rfl)
      · exact letter_letter (by omega)
      · exact letter_letter (by omega)
      · exact letter_letter (by omega)
      · exact .inr rfl
  | case4 first second third rest induction =>
      have one := whole first (by simp)
      have two := whole second (by simp)
      have three := whole third (by simp)
      have later := induction fun byte member => whole byte (by simp [member])
      simp only [List.mem_cons]
      rintro char (rfl | rfl | rfl | rfl | member)
      · exact letter_letter (by omega)
      · exact letter_letter (by omega)
      · exact letter_letter (by omega)
      · exact letter_letter (by omega)
      · exact later char member

theorem decode_encode {bytes : Line} (whole : Bytes bytes) :
    decode (encode bytes) = some bytes := by
  fun_induction encode bytes with
  | case1 => rfl
  | case2 first =>
      have one := whole first (by simp)
      have high : first.toNat / 4 * 4 + first.toNat % 4 * 16 / 16 = first.toNat := by omega
      rw [decode, valueOf_letter (by omega), valueOf_letter (by omega)]
      simp only [Option.bind_eq_bind, Option.bind_some, high, Char.ofNat_toNat, and_self, if_true]
  | case3 first second =>
      have one := whole first (by simp)
      have two := whole second (by simp)
      have high : first.toNat / 4 * 4 + (first.toNat % 4 * 16 + second.toNat / 16) / 16 =
          first.toNat := by omega
      have middle : (first.toNat % 4 * 16 + second.toNat / 16) % 16 * 16 +
          second.toNat % 16 * 4 / 4 = second.toNat := by omega
      rw [decode, valueOf_letter (by omega), valueOf_letter (by omega)]
      simp only [Option.bind_eq_bind, Option.bind_some]
      rw [if_neg (letter_ne_fill (by omega)), valueOf_letter (by omega)]
      simp only [Option.bind_some, high, middle, Char.ofNat_toNat, if_true]
  | case4 first second third rest induction =>
      have one := whole first (by simp)
      have two := whole second (by simp)
      have three := whole third (by simp)
      have later := induction fun byte member => whole byte (by simp [member])
      have high : first.toNat / 4 * 4 + (first.toNat % 4 * 16 + second.toNat / 16) / 16 =
          first.toNat := by omega
      have middle : (first.toNat % 4 * 16 + second.toNat / 16) % 16 * 16 +
          (second.toNat % 16 * 4 + third.toNat / 64) / 4 = second.toNat := by omega
      have low : (second.toNat % 16 * 4 + third.toNat / 64) % 4 * 64 + third.toNat % 64 =
          third.toNat := by omega
      rw [decode, valueOf_letter (by omega), valueOf_letter (by omega)]
      simp only [Option.bind_eq_bind, Option.bind_some]
      rw [if_neg (letter_ne_fill (by omega)), valueOf_letter (by omega)]
      simp only [Option.bind_some]
      rw [if_neg (letter_ne_fill (by omega)), valueOf_letter (by omega), later]
      simp only [Option.bind_some, high, middle, low, Char.ofNat_toNat]

/-- A text is no shorter than what it encodes. -/
theorem length_decode {text bytes : Line} (decoded : decode text = some bytes) :
    bytes.length ≤ text.length := by
  fun_induction decode text generalizing bytes with
  | case1 =>
      cases decoded
      exact Nat.le_refl _
  | case2 first second third fourth rest induction =>
      simp only [Option.bind_eq_bind, Option.bind_eq_some_iff] at decoded
      rcases decoded with ⟨one, _, two, _, decoded⟩
      split at decoded
      · split at decoded
        · cases decoded
          simp
        · cases decoded
      rcases Option.bind_eq_some_iff.mp decoded with ⟨three, _, decoded⟩
      split at decoded
      · split at decoded
        · cases decoded
          simp
        · cases decoded
      simp only [Option.bind_eq_some_iff] at decoded
      rcases decoded with ⟨four, _, more, equal, same⟩
      cases same
      have later := induction equal
      simp only [List.length_cons]
      omega
  | case3 => cases decoded

end Homelab.Base64
