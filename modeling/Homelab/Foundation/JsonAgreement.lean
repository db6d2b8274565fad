import Homelab.Foundation.GoJsonRoundTrip

/-! # One JSON text, two readers

What Go accepts Python reads as the same value, unless it nests too deep for the interpreter.
Python has the text with newlines at the ends of its lines, whatever ends them in the file.
-/

namespace Homelab.GoJson

open Text Json GoText Python Utf8

/-! ## Values -/

def Numeral.value (numeral : Numeral) : Value :=
  if numeral.isWhole then .int numeral.wholeValue else .float (floatOf numeral.exact)

mutual

def valueOf : Tree → Value
  | .null => .none
  | .bool value => .bool value
  | .number numeral => numeral.value
  | .str text => .str (.ofList text)
  | .list items => .list (valuesOf items)
  | .dict fields => .dict (putAll (fieldsOf fields) [])

def valuesOf : List Tree → List Value
  | [] => []
  | item :: rest => valueOf item :: valuesOf rest

def fieldsOf : List (Line × Tree) → List (String × Value)
  | [] => []
  | (name, tree) :: rest => (.ofList name, valueOf tree) :: fieldsOf rest

end

/- How many lists and objects are in one another. -/
mutual

def Tree.height : Tree → Nat
  | .list items => heightItems items + 1
  | .dict fields => heightFields fields + 1
  | _ => 0

def heightItems : List Tree → Nat
  | [] => 0
  | item :: rest => max item.height (heightItems rest)

def heightFields : List (Line × Tree) → Nat
  | [] => 0
  | (_, tree) :: rest => max tree.height (heightFields rest)

end

/- No number in the value has more digits than Python reads. -/
mutual

def Short : Tree → Prop
  | .number numeral => numeral.isWhole = true → natOf numeral.whole < 10 ^ 4300
  | .list items => ShortItems items
  | .dict fields => ShortFields fields
  | _ => True

def ShortItems : List Tree → Prop
  | [] => True
  | item :: rest => Short item ∧ ShortItems rest

def ShortFields : List (Line × Tree) → Prop
  | [] => True
  | (_, tree) :: rest => Short tree ∧ ShortFields rest

end

/-! ## Line ends -/

theorem universal_visible {char : Char} (returned : Bool) (visible : Json.isSpace char = false)
    (rest : Line) : universal returned (char :: rest) = char :: universal false rest := by
  simp only [Json.isSpace, Bool.or_eq_false_iff, decide_eq_false_iff_not] at visible
  simp [universal, visible]

/-- Line ends are white space, and stay it. -/
theorem skip_universal (returned : Bool) (chars : Line) :
    skip (universal returned chars) = universal false (skip chars) := by
  induction chars generalizing returned with
  | nil => rfl
  | cons char rest induction =>
      cases visible : Json.isSpace char with
      | false =>
          rw [universal_visible returned visible, skip_visible char visible,
            skip_visible char visible, universal_visible false visible]
      | true =>
          have skipped : skip (char :: rest) = skip rest := by
            simp [skip, visible]
          rw [skipped, universal]
          split
          · rw [← induction true]
            rfl
          split
          · exact induction false
          · rw [← induction false]
            simp [skip, visible]

section

variable {own : Char → Bool} (noReturn : own '\r' = false) (noLine : own '\n' = false)
include noReturn noLine

theorem takeWhile_universal (chars : Line) :
    (universal false chars).takeWhile own = chars.takeWhile own := by
  induction chars with
  | nil => rfl
  | cons char rest induction =>
      by_cases returns : char = '\r'
      · subst returns
        rw [universal, if_pos rfl, List.takeWhile_cons_of_neg (by simp [noLine]),
          List.takeWhile_cons_of_neg (by simp [noReturn])]
      · rw [universal_cons returns, List.takeWhile_cons, List.takeWhile_cons, induction]

theorem dropWhile_universal (chars : Line) :
    (universal false chars).dropWhile own = universal false (chars.dropWhile own) := by
  induction chars with
  | nil => rfl
  | cons char rest induction =>
      by_cases returns : char = '\r'
      · subst returns
        rw [List.dropWhile_cons_of_neg (by simp [noReturn]), universal, if_pos rfl,
          List.dropWhile_cons_of_neg (by simp [noLine])]
      · rw [universal_cons returns, List.dropWhile_cons, List.dropWhile_cons, induction]
        split
        · rfl
        · rw [universal_cons returns]

theorem span_universal (chars : Line) :
    (universal false chars).span own =
      ((chars.span own).1, universal false (chars.span own).2) := by
  rw [List.span_eq_takeWhile_dropWhile, List.span_eq_takeWhile_dropWhile,
    takeWhile_universal noReturn noLine, dropWhile_universal noReturn noLine]

end

theorem span_digits_universal (chars : Line) : (universal false chars).span Char.isDigit =
    ((chars.span Char.isDigit).1, universal false (chars.span Char.isDigit).2) :=
  span_universal (by decide) (by decide) chars

/-- The first character, unless a line ends there. -/
theorem universal_first (chars : Line) : universal false chars = [] ∧ chars = [] ∨
    (∃ more, universal false chars = '\n' :: more ∧ ∃ rest, chars = '\r' :: rest) ∨
    ∃ char rest, chars = char :: rest ∧ char ≠ '\r' ∧
      universal false chars = char :: universal false rest := by
  cases chars with
  | nil => exact .inl ⟨rfl, rfl⟩
  | cons char rest =>
      by_cases returns : char = '\r'
      · subst returns
        exact .inr (.inl ⟨_, by rw [universal, if_pos rfl], rest, rfl⟩)
      · exact .inr (.inr ⟨char, rest, rfl, returns, universal_cons returns rest⟩)

theorem universal_ne {mark : Char} (other : mark ≠ '\n') {chars : Line}
    (different : ∀ rest, chars ≠ mark :: rest) (rest : Line) :
    universal false chars ≠ mark :: rest := by
  intro equal
  rcases universal_first chars with ⟨same, _⟩ | ⟨_, same, _, _⟩ | ⟨char, rest, rfl, _, same⟩
  · rw [same] at equal
    cases equal
  · rw [same] at equal
    exact other (List.cons.inj equal).1.symm
  · rw [same] at equal
    exact different rest (congrArg (· :: rest) (List.cons.inj equal).1)

theorem scanWhole_span {chars : Line} (nonzero : ∀ rest, chars ≠ '0' :: rest) :
    scanWhole chars =
      if (chars.span Char.isDigit).1 = [] then none else some (chars.span Char.isDigit) := by
  rw [scanWhole.eq_def]
  split
  · next rest => exact absurd rfl (nonzero rest)
  · split
    · next spanned => rw [spanned, if_pos rfl]
    · next digits some_ =>
        rw [if_neg]
        intro none
        exact some_ _ (Prod.ext none rfl)

theorem scanWhole_universal (chars : Line) : scanWhole (universal false chars) =
    (scanWhole chars).map fun (digits, rest) => (digits, universal false rest) := by
  rcases universal_first chars with
    ⟨same, rfl⟩ | ⟨more, same, rest, rfl⟩ | ⟨char, rest, rfl, _, same⟩
  · rfl
  · rw [same]
    rfl
  · by_cases zero : char = '0'
    · subst zero
      rw [same]
      rfl
    · have other : ∀ char rest', char ≠ '0' → ∀ more, char :: rest' ≠ '0' :: more :=
        fun _ _ different _ equal => different (List.cons.inj equal).1
      rw [scanWhole_span (other char rest zero), same, scanWhole_span (other char _ zero), ← same,
        span_digits_universal]
      simp only
      split <;> rfl

theorem scanFraction_universal (chars : Line) : scanFraction (universal false chars) =
    ((scanFraction chars).1, universal false (scanFraction chars).2) := by
  rcases universal_first chars with
    ⟨same, rfl⟩ | ⟨more, same, rest, rfl⟩ | ⟨char, rest, rfl, _, same⟩
  · rfl
  · rw [same]
    rw [show scanFraction ('\r' :: rest) = (none, '\r' :: rest) from rfl]
    simp only
    rw [same]
    rfl
  · by_cases point : char = '.'
    · subst point
      rw [same, scanFraction, span_digits_universal, scanFraction]
      cases spanned : rest.span Char.isDigit with
      | mk digits after =>
          cases digits with
          | nil => simp only [same]
          | cons digit digits => rfl
    · have unread : ∀ rest', scanFraction (char :: rest') = (none, char :: rest') := by
        intro rest'
        rw [scanFraction.eq_def]
        split
        · next equal => exact absurd (List.cons.inj equal).1 point
        · rfl
      rw [same, unread, unread, same]

theorem scanSign_universal (chars : Line) : scanSign (universal false chars) =
    ((scanSign chars).1, universal false (scanSign chars).2) := by
  rcases universal_first chars with
    ⟨same, rfl⟩ | ⟨more, same, rest, rfl⟩ | ⟨char, rest, rfl, _, same⟩
  · rfl
  · rw [same]
    rw [show scanSign ('\r' :: rest) = (1, '\r' :: rest) from rfl]
    simp only
    rw [same]
    rfl
  · rw [same]
    by_cases minus : char = '-'
    · subst minus
      rfl
    by_cases plus : char = '+'
    · subst plus
      rfl
    have unread : ∀ rest', scanSign (char :: rest') = (1, char :: rest') := by
      intro rest'
      rw [scanSign.eq_def]
      split
      · next equal => exact absurd (List.cons.inj equal).1 minus
      · next equal => exact absurd (List.cons.inj equal).1 plus
      · rfl
    rw [unread, unread, same]

theorem scanExponent_mark {mark : Char} (own : mark = 'e' ∨ mark = 'E') (rest : Line) :
    scanExponent (mark :: rest) =
      if ((scanSign rest).2.span Char.isDigit).1 = [] then (none, mark :: rest)
      else (some ((scanSign rest).1 * natOf ((scanSign rest).2.span Char.isDigit).1),
        ((scanSign rest).2.span Char.isDigit).2) := by
  rw [scanExponent.eq_def]
  simp only [own, if_true]
  split
  · next spanned => rw [spanned, if_pos rfl]
  · next some_ spanned =>
      rw [spanned, if_neg some_]

theorem scanExponent_universal (chars : Line) : scanExponent (universal false chars) =
    ((scanExponent chars).1, universal false (scanExponent chars).2) := by
  rcases universal_first chars with
    ⟨same, rfl⟩ | ⟨more, same, rest, rfl⟩ | ⟨char, rest, rfl, _, same⟩
  · rfl
  · rw [same]
    rw [show scanExponent ('\r' :: rest) = (none, '\r' :: rest) from rfl]
    simp only
    rw [same]
    rfl
  · by_cases own : char = 'e' ∨ char = 'E'
    · rw [same, scanExponent_mark own, scanExponent_mark own, scanSign_universal,
        span_digits_universal]
      simp only
      split
      · rw [same]
      · rfl
    · have unread : ∀ rest', scanExponent (char :: rest') = (none, char :: rest') := by
        intro rest'
        rw [scanExponent.eq_def]
        simp only [own, if_false]
      rw [same, unread, unread, same]

/-! ## What is left of the text -/

theorem span_length (own : Char → Bool) (chars : Line) :
    (chars.span own).2.length ≤ chars.length := by
  rw [List.span_eq_takeWhile_dropWhile]
  exact (List.dropWhile_sublist own).length_le

theorem scanWhole_length {chars digits rest : Line} (read : scanWhole chars = some (digits, rest)) :
    rest.length < chars.length := by
  by_cases zero : ∃ more, chars = '0' :: more
  · rcases zero with ⟨more, rfl⟩
    cases read
    exact Nat.lt_succ_self _
  · rw [scanWhole_span fun more equal => zero ⟨more, equal⟩] at read
    split at read
    · cases read
    · next some_ =>
        injection read with spanned
        rw [List.span_eq_takeWhile_dropWhile] at spanned some_
        cases spanned
        have parts : (chars.takeWhile Char.isDigit).length + (chars.dropWhile Char.isDigit).length =
            chars.length := by
          rw [← List.length_append, List.takeWhile_append_dropWhile]
        have positive : 0 < (chars.takeWhile Char.isDigit).length :=
          List.length_pos_iff.mpr some_
        omega

theorem scanFraction_length (chars : Line) : (scanFraction chars).2.length ≤ chars.length := by
  rw [scanFraction.eq_def]
  split
  · next rest =>
      have short := span_length Char.isDigit rest
      split
      · exact Nat.le_refl _
      · next spanned =>
          rw [spanned] at short
          exact Nat.le_succ_of_le short
  · exact Nat.le_refl _

theorem scanSign_length (chars : Line) : (scanSign chars).2.length ≤ chars.length := by
  rw [scanSign.eq_def]
  split
  · exact Nat.le_succ _
  · exact Nat.le_succ _
  · exact Nat.le_refl _

theorem scanExponent_length (chars : Line) : (scanExponent chars).2.length ≤ chars.length := by
  rcases chars with _ | ⟨mark, rest⟩
  · exact Nat.le_refl _
  by_cases own : mark = 'e' ∨ mark = 'E'
  · rw [scanExponent_mark own]
    split
    · exact Nat.le_refl _
    · have digits := span_length Char.isDigit (scanSign rest).2
      have sign := scanSign_length rest
      simp only [List.length_cons]
      omega
  · rw [scanExponent.eq_def]
    simp only [own, if_false]
    exact Nat.le_refl _

/-! ## Numbers -/

def Signed (chars own : Line) (negative : Bool) : Prop :=
  (chars = '-' :: own ∧ negative = true) ∨
    ((∀ more, chars ≠ '-' :: more) ∧ chars = own ∧ negative = false)

theorem scanNumeral_parts {chars rest : Line} {numeral : Numeral}
    (read : scanNumeral chars = some (numeral, rest)) :
    ∃ own after, Signed chars own numeral.negative ∧
      scanWhole own = some (numeral.whole, after) ∧
      scanFraction after = (numeral.fraction, (scanFraction after).2) ∧
      scanExponent (scanFraction after).2 = (numeral.exponent, rest) := by
  rw [scanNumeral.eq_def] at read
  split at read
  next negative own signed =>
  have parts : Signed chars own negative := by
    split at signed
    · cases signed
      exact .inl ⟨rfl, rfl⟩
    · next unsigned =>
        cases signed
        exact .inr ⟨unsigned, rfl, rfl⟩
  cases whole : scanWhole own with
  | none =>
      rw [whole] at read
      cases read
  | some scanned =>
      rcases scanned with ⟨digits, after⟩
      rw [whole] at read
      simp only [Option.some.injEq, Prod.mk.injEq] at read
      rcases read with ⟨rfl, rfl⟩
      exact ⟨own, after, parts, whole, rfl, rfl⟩

theorem scanWhole_first {chars : Line} {scanned : Line × Line}
    (read : scanWhole chars = some scanned) :
    ∃ first more, chars = first :: more ∧ first.isDigit = true := by
  rcases chars with _ | ⟨first, more⟩
  · cases read
  refine ⟨first, more, rfl, ?_⟩
  by_cases zero : first = '0'
  · subst zero
    rfl
  · rw [scanWhole_span (fun _ equal => zero (List.cons.inj equal).1)] at read
    split at read
    · cases read
    · next some_ =>
        by_contra other
        rw [List.span_eq_takeWhile_dropWhile, List.takeWhile_cons_of_neg other] at some_
        exact some_ rfl

theorem natOf_le (digits : Line) (value : Nat) :
    value * 10 ^ digits.length ≤
      digits.foldl (fun value char => value * 10 + (char.toNat - 48)) value := by
  induction digits generalizing value with
  | nil => simp
  | cons char rest induction =>
      rw [List.foldl_cons, List.length_cons, Nat.pow_succ]
      refine Nat.le_trans ?_ (induction (value * 10 + (char.toNat - 48)))
      calc value * (10 ^ rest.length * 10) = value * 10 * 10 ^ rest.length := by ring
        _ ≤ (value * 10 + (char.toNat - 48)) * 10 ^ rest.length :=
          Nat.mul_le_mul_right _ (Nat.le_add_right _ _)

/-- A number is written with no needless zeros, so it is as long as it is large. -/
theorem scanWhole_short {chars digits rest : Line} {count : Nat}
    (read : scanWhole chars = some (digits, rest)) (some_ : 1 ≤ count)
    (small : natOf digits < 10 ^ count) : digits.length ≤ count := by
  rcases scanWhole_first read with ⟨first, more, rfl, digit⟩
  by_cases zero : first = '0'
  · subst zero
    cases read
    exact some_
  · rw [scanWhole_span fun _ equal => zero (List.cons.inj equal).1] at read
    split at read
    · cases read
    · injection read with spanned
      rw [List.span_eq_takeWhile_dropWhile, List.takeWhile_cons_of_pos digit] at spanned
      cases spanned
      have bounds := toNat_of_isDigit digit
      have positive : 1 ≤ first.toNat - 48 := by
        by_contra none
        have code : first.toNat = '0'.toNat := by
          rw [show '0'.toNat = 48 from rfl]
          omega
        exact zero (Char.ext (UInt32.toNat_inj.mp code))
      have low := natOf_le (more.takeWhile Char.isDigit) (first.toNat - 48)
      have same : natOf (first :: more.takeWhile Char.isDigit) =
          (more.takeWhile Char.isDigit).foldl (fun value char => value * 10 + (char.toNat - 48))
            (first.toNat - 48) := by
        rw [natOf, List.foldl_cons]
        simp
      rw [same] at small
      have least : 1 * 10 ^ (more.takeWhile Char.isDigit).length ≤
          (first.toNat - 48) * 10 ^ (more.takeWhile Char.isDigit).length :=
        Nat.mul_le_mul_right _ positive
      rw [Nat.one_mul] at least
      have power : 10 ^ (more.takeWhile Char.isDigit).length < 10 ^ count :=
        Nat.lt_of_le_of_lt (Nat.le_trans least low) small
      have shorter := (Nat.pow_lt_pow_iff_right (by decide)).mp power
      rw [List.length_cons]
      omega

/-- A number that Python reads, from its parts. -/
theorem scanNumber_parts {chars own after after' rest : Line} {numeral : Numeral}
    (signed : Signed chars own numeral.negative)
    (whole : scanWhole own = some (numeral.whole, after))
    (fraction : scanFraction after = (numeral.fraction, after'))
    (exponent : scanExponent after' = (numeral.exponent, rest))
    (short : numeral.isWhole = true → numeral.whole.length ≤ 4300) :
    scanNumber chars = .ok (numeral.value, rest) := by
  rw [scanNumber.eq_def]
  split
  next negative own' signed' =>
  have same : negative = numeral.negative ∧ own' = own := by
    rcases signed with ⟨rfl, positive⟩ | ⟨unsigned, rfl, negative⟩
    · cases signed'
      exact ⟨positive.symm, rfl⟩
    · split at signed'
      · exact absurd rfl (unsigned _)
      · cases signed'
        exact ⟨negative.symm, rfl⟩
  rcases same with ⟨rfl, rfl⟩
  rw [whole]
  simp only [fraction, exponent]
  split
  · next none none' =>
      have isWhole : numeral.isWhole = true := by
        rw [Numeral.isWhole, none, none']
        rfl
      rw [if_pos (short isWhole), show numeral.value = .int numeral.wholeValue from if_pos isWhole]
      rfl
  · next some_ =>
      have fractional : ¬numeral.isWhole = true := by
        simp only [Numeral.isWhole, Bool.and_eq_true, Option.isNone_iff_eq_none, not_and]
        exact fun none none' => some_ none none'
      rw [show numeral.value = .float (floatOf numeral.exact) from if_neg fractional]
      rfl

theorem Signed.universal {chars own : Line} {negative : Bool} (signed : Signed chars own negative) :
    Signed (Utf8.universal false chars) (Utf8.universal false own) negative := by
  rcases signed with ⟨rfl, rfl⟩ | ⟨unsigned, rfl, rfl⟩
  · exact .inl ⟨universal_cons (by decide) own, rfl⟩
  · exact .inr ⟨universal_ne (by decide) unsigned, rfl, rfl⟩

theorem scanNumber_universal {chars rest : Line} {numeral : Numeral}
    (read : scanNumeral chars = some (numeral, rest)) (short : Short (.number numeral)) :
    scanNumber (universal false chars) = .ok (numeral.value, universal false rest) ∧
      (universal false rest).length < (universal false chars).length := by
  rcases scanNumeral_parts read with ⟨own, after, signed, whole, fraction, exponent⟩
  have signed' := signed.universal
  have whole' := scanWhole_universal own
  have fraction' := scanFraction_universal after
  have exponent' := scanExponent_universal (scanFraction after).2
  rw [whole] at whole'
  rw [fraction] at fraction'
  rw [exponent] at exponent'
  have few : numeral.isWhole = true → numeral.whole.length ≤ 4300 :=
    fun isWhole => scanWhole_short whole (by decide) (short isWhole)
  refine ⟨scanNumber_parts signed' whole' fraction' exponent' few, ?_⟩
  have first := scanWhole_length whole'
  have second := scanFraction_length (universal false after)
  have third := scanExponent_length (universal false (scanFraction after).2)
  rw [fraction'] at second
  rw [exponent'] at third
  have sign : (universal false own).length ≤ (universal false chars).length := by
    rcases signed' with ⟨spelled, _⟩ | ⟨_, spelled, _⟩
    · rw [spelled]
      exact Nat.le_succ _
    · rw [spelled]
  simp only at second third
  omega

/-! ## Texts -/

theorem hexCode_return {digits : Line} (returns : '\r' ∈ digits) : hexCode digits = none := by
  have each : ∀ code, digits.foldlM (fun code char => (hexDigit char).map (code * 16 + ·)) code =
      (none : Option Nat) := by
    induction digits with
    | nil => cases returns
    | cons char rest induction =>
        intro code
        rw [List.foldlM_cons]
        rcases List.mem_cons.mp returns with rfl | later
        · rfl
        · cases found : hexDigit char with
          | none => rfl
          | some digit => exact induction later _
  exact each 0

theorem scanString_backslash (pending : Option Nat) {char : Char} (other : char ≠ 'u')
    (rest : Line) :
    scanString pending ('\\' :: char :: rest) = (escaped char).bind fun char =>
      (scanString none rest).map fun (text, rest) => (lone pending ++ char :: text, rest) := by
  rw [scanString.eq_def]
  split
  · next equal => cases equal
  · next equal => exact absurd (List.cons.inj equal).1 (by decide)
  · next equal =>
      exact absurd (List.cons.inj (List.cons.inj equal).2).1 other
  · next equal =>
      cases equal
      rfl
  · next named equal =>
      cases equal
      exact absurd rfl (named _ _ rfl)

theorem scanString_other (pending : Option Nat) {char : Char} (quote : char ≠ '"')
    (backslash : char ≠ '\\') (visible : ¬char.toNat < 32) (rest : Line) :
    scanString pending (char :: rest) =
      (scanString none rest).map fun (text, rest) => (lone pending ++ char :: text, rest) := by
  rw [scanString.eq_def]
  split
  · next equal => cases equal
  · next equal => exact absurd (List.cons.inj equal).1 quote
  · next equal => exact absurd (List.cons.inj equal).1 backslash
  · next equal => exact absurd (List.cons.inj equal).1 backslash
  · next equal =>
      cases equal
      rw [if_neg visible]

/-- The text is read up to its closing quote, whatever follows. -/
structure QuotedBy (pending : Option Nat) (raw text : Line) : Prop where
  some_ : raw ≠ []
  single : '\r' ∉ raw
  reads : ∀ rest, scanString pending (raw ++ rest) = some (text, rest)

theorem scanString_local {pending : Option Nat} {chars text rest : Line}
    (read : scanString pending chars = some (text, rest)) :
    ∃ raw, chars = raw ++ rest ∧ QuotedBy pending raw text := by
  fun_induction scanString pending chars generalizing text rest with
  | case1 => cases read
  | case2 pending after =>
      cases read
      exact ⟨['"'], rfl, by simp, by decide, fun rest => rfl⟩
  | case3 pending a b c d after unpaired half =>
      rcases Option.bind_eq_some_iff.mp read with ⟨code, hex, more⟩
      have visible : '\r' ∉ [a, b, c, d] := by
        intro returns
        rw [hexCode_return returns] at hex
        cases hex
      have single : ∀ raw : Line, '\r' ∉ raw → '\r' ∉ '\\' :: 'u' :: a :: b :: c :: d :: raw := by
        intro raw single
        simpa [single] using visible
      split at more
      · next high lower =>
          rcases Option.map_eq_some_iff.mp more with ⟨⟨text', rest'⟩, later, same⟩
          cases same
          rcases unpaired later with ⟨raw, rfl, some_, returns, reads⟩
          refine ⟨'\\' :: 'u' :: a :: b :: c :: d :: raw, rfl, by simp, single raw returns,
            fun rest => ?_⟩
          simp only [List.cons_append, scanString, hex, bind, Option.bind, lower, reads rest]
          rfl
      · next pending' _ _ _ =>
          split at more
          · next high =>
              rcases Option.map_eq_some_iff.mp more with ⟨⟨text', rest'⟩, later, same⟩
              cases same
              rcases half code later with ⟨raw, rfl, some_, returns, reads⟩
              refine ⟨'\\' :: 'u' :: a :: b :: c :: d :: raw, rfl, by simp, single raw returns,
                fun rest => ?_⟩
              simp only [List.cons_append, scanString, hex, bind, Option.bind, reads rest]
              rw [if_pos high]
              rfl
          · next high =>
              rcases Option.map_eq_some_iff.mp more with ⟨⟨text', rest'⟩, later, same⟩
              cases same
              rcases unpaired later with ⟨raw, rfl, some_, returns, reads⟩
              refine ⟨'\\' :: 'u' :: a :: b :: c :: d :: raw, rfl, by simp, single raw returns,
                fun rest => ?_⟩
              simp only [List.cons_append, scanString, hex, bind, Option.bind, reads rest]
              rw [if_neg high]
              rfl
  | case4 pending char after unnamed induction =>
      rcases Option.bind_eq_some_iff.mp read with ⟨own, escape, more⟩
      rcases Option.map_eq_some_iff.mp more with ⟨⟨text', rest'⟩, later, same⟩
      cases same
      have other : char ≠ 'u' := by
        rintro rfl
        cases escape
      have visible : char ≠ '\r' := by
        rintro rfl
        cases escape
      rcases induction later with ⟨raw, rfl, some_, single, reads⟩
      refine ⟨'\\' :: char :: raw, rfl, by simp, by simp [visible.symm, single], fun rest => ?_⟩
      rw [List.cons_append, List.cons_append, scanString_backslash pending other, escape,
        reads rest]
      rfl
  | case5 => cases read
  | case6 pending char after quote unnamed escaped visible induction =>
      rcases Option.map_eq_some_iff.mp read with ⟨⟨text', rest'⟩, later, same⟩
      cases same
      have backslash : char ≠ '\\' := by
        rintro rfl
        cases after with
        | nil => cases later
        | cons first more => exact escaped first more rfl rfl
      have returns : char ≠ '\r' := by
        rintro rfl
        exact visible (by decide)
      rcases induction later with ⟨raw, rfl, some_, single, reads⟩
      refine ⟨char :: raw, rfl, by simp, by simp [returns.symm, single], fun rest => ?_⟩
      rw [List.cons_append, scanString_other pending quote backslash visible, reads rest]
      rfl

theorem scanString_universal {pending : Option Nat} {chars text rest : Line}
    (read : scanString pending chars = some (text, rest)) :
    scanString pending (universal false chars) = some (text, universal false rest) ∧
      (universal false rest).length < (universal false chars).length := by
  rcases scanString_local read with ⟨raw, rfl, some_, single, reads⟩
  rw [universal_append single]
  refine ⟨reads _, ?_⟩
  rw [List.length_append]
  have positive := List.length_pos_iff.mpr some_
  omega

/-! ## Names and numbers -/

/-- No name is read where a number is. -/
theorem no_constant {chars own after digits : Line} {negative : Bool}
    (signed : Signed chars own negative) (whole : scanWhole own = some (digits, after)) :
    Json.constants.find? (fun constant => constant.1.isPrefixOf chars) = none := by
  rcases scanWhole_first whole with ⟨first, more, rfl, digit⟩
  have other : ∀ char : Char, char.isDigit = false → ¬char = first :=
    fun char different same => ne_of_isDigit digit different same.symm
  rw [List.find?_eq_none]
  intro constant member
  simp only [Json.constants, List.mem_cons, List.not_mem_nil, or_false] at member
  rcases signed with ⟨rfl, _⟩ | ⟨_, rfl, _⟩
  · rcases member with rfl | rfl | rfl | rfl | rfl | rfl <;>
      simp [List.isPrefixOf, other]
  · rcases member with rfl | rfl | rfl | rfl | rfl | rfl <;>
      simp [List.isPrefixOf, other]

/-- A name is read as it is. -/
theorem scanAtom_constant {constant : Line × Tree} (member : constant ∈ constants) (rest : Line) :
    '\r' ∉ constant.1 ∧ constant.1 ≠ [] ∧ constant.2.height = 0 ∧
      Json.scanAtom (constant.1 ++ rest) = .ok (valueOf constant.2, rest) := by
  simp only [constants, List.mem_cons, List.not_mem_nil, or_false] at member
  rcases member with rfl | rfl | rfl
  · exact ⟨by decide, by decide, rfl, rfl⟩
  · exact ⟨by decide, by decide, rfl, rfl⟩
  · exact ⟨by decide, by decide, rfl, rfl⟩

theorem scanAtom_universal {chars rest : Line} {tree : Tree}
    (read : scanAtom chars = some (tree, rest)) (short : Short tree) :
    Json.scanAtom (universal false chars) = .ok (valueOf tree, universal false rest) ∧
      (universal false rest).length < (universal false chars).length ∧ tree.height = 0 := by
  rw [scanAtom] at read
  split at read
  · next name constant found =>
      cases read
      have member := List.mem_of_find?_eq_some found
      have starts := List.find?_some found
      simp only at starts
      rcases List.isPrefixOf_iff_prefix.mp starts with ⟨after, rfl⟩
      rcases scanAtom_constant member (universal false after) with
        ⟨single, some_, flat, own⟩
      rw [List.drop_left, universal_append single]
      refine ⟨own, ?_, flat⟩
      rw [List.length_append]
      have positive := List.length_pos_iff.mpr some_
      omega
  · rcases Option.map_eq_some_iff.mp read with ⟨⟨numeral, rest'⟩, scanned, same⟩
    cases same
    rcases scanNumeral_parts scanned with ⟨own, after, signed, whole, _, _⟩
    have whole' := scanWhole_universal own
    rw [whole] at whole'
    have number := scanNumber_universal scanned short
    rw [Json.scanAtom, no_constant signed.universal whole']
    exact ⟨number.1, number.2, rfl⟩

/-! ## Values -/

/-- Python reads the value, which fits its stack, and what follows it, or the stack is too
small. -/
def Agrees {α : Type} (outcome : Except Raised (α × Line)) (value : α) (before after : Line)
    (fits : Prop) : Prop :=
  (outcome = .ok (value, after) ∧ after.length < before.length ∧ fits) ∨
    outcome = .error .recursionError

section

variable {α β : Type} {outcome : Except Raised (α × Line)} {value : α} {before after : Line}
  {fits : Prop}

theorem Agrees.map (agrees : Agrees outcome value before after fits) (make : α → β) :
    Agrees (outcome.map fun (value, rest) => (make value, rest)) (make value) before after
      fits := by
  rcases agrees with ⟨rfl, shorter, own⟩ | rfl
  · exact .inl ⟨rfl, shorter, own⟩
  · exact .inr rfl

theorem Agrees.later (agrees : Agrees outcome value before after fits) {first : Line} {all : Prop}
    (longer : before.length ≤ first.length) (whole : fits → all) :
    Agrees outcome value first after all := by
  rcases agrees with ⟨same, shorter, own⟩ | same
  · exact .inl ⟨same, Nat.lt_of_lt_of_le shorter longer, whole own⟩
  · exact .inr same

theorem Agrees.bind (agrees : Agrees outcome value before after fits)
    {next : α × Line → Except Raised (β × Line)} {result : β} {rest : Line} {all : Prop}
    (later : after.length < before.length → fits →
      Agrees (next (value, after)) result before rest all) :
    Agrees (outcome.bind next) result before rest all := by
  rcases agrees with ⟨rfl, shorter, own⟩ | rfl
  · exact later shorter own
  · exact .inr rfl

end

theorem length_skip (chars : Line) : (skip chars).length ≤ chars.length :=
  (List.dropWhile_sublist _).length_le

/-- A value that is no text, list or object. -/
theorem scanValue_atom (steps depth : Nat) {chars : Line}
    (plain : ∀ char rest, chars = char :: rest → char ≠ '"' ∧ char ≠ '[' ∧ char ≠ '\x7b') :
    Json.scanValue (steps + 1) depth chars = Json.scanAtom chars := by
  rw [Json.scanValue.eq_def]
  simp only
  split
  · exact absurd rfl (plain _ _ rfl).1
  · exact absurd rfl (plain _ _ rfl).2.1
  · exact absurd rfl (plain _ _ rfl).2.2
  · rfl

structure StepAgrees (steps : Nat) : Prop where
  value : ∀ {depth chars tree rest}, scanValue steps depth chars = some (tree, rest) →
    Short tree → ∀ {more} (depth' : Nat), 2 * (universal false chars).length + 1 ≤ more →
      Agrees (Json.scanValue more depth' (universal false chars)) (valueOf tree)
        (universal false chars) (universal false rest) (tree.height ≤ depth')
  items : ∀ {depth chars items rest}, scanItems steps depth chars = some (items, rest) →
    ShortItems items → ∀ {more} (depth' : Nat), 2 * (universal false chars).length + 2 ≤ more →
      Agrees (Json.scanItems more depth' (universal false chars)) (valuesOf items)
        (universal false chars) (universal false rest) (heightItems items ≤ depth')
  fields : ∀ {depth chars fields rest}, scanFields steps depth chars = some (fields, rest) →
    ShortFields fields → ∀ {more} (depth' : Nat) (into : List (String × Value)),
      2 * (universal false chars).length + 2 ≤ more →
      Agrees (Json.scanFields more depth' into (universal false chars))
        (putAll (fieldsOf fields) into) (universal false chars) (universal false rest)
        (heightFields fields ≤ depth')

theorem stepAgrees_value {steps : Nat} (before : StepAgrees steps) {depth : Nat} {chars rest : Line}
    {tree : Tree} (read : scanValue (steps + 1) depth chars = some (tree, rest))
    (short : Short tree) {more : Nat} (depth' : Nat)
    (enough : 2 * (universal false chars).length + 1 ≤ more) :
    Agrees (Json.scanValue more depth' (universal false chars)) (valueOf tree)
      (universal false chars) (universal false rest) (tree.height ≤ depth') := by
  rcases more with _ | more
  · exact absurd enough (by omega)
  rw [scanValue.eq_def] at read
  simp only at read
  split at read
  · next after =>
      rcases Option.map_eq_some_iff.mp read with ⟨⟨text, rest'⟩, scanned, same⟩
      cases same
      rcases scanString_universal scanned with ⟨reads, shorter⟩
      rw [universal_cons (by decide)]
      left
      refine ⟨?_, Nat.lt_succ_of_lt shorter, Nat.zero_le _⟩
      rw [Json.scanValue.eq_def]
      simp only [quoted, reads]
      rfl
  · next after =>
      rcases depth with _ | depth
      · cases read
      simp only at read
      rw [universal_cons (by decide)] at enough ⊢
      rw [List.length_cons] at enough
      rcases depth' with _ | depth'
      · exact .inr rfl
      have skipped := length_skip (universal false after)
      rw [skip_universal] at skipped
      rw [Json.scanValue.eq_def]
      simp only
      rw [skip_universal]
      split at read
      · next closed spelled =>
          cases read
          rw [spelled, universal_cons (by decide), List.length_cons] at skipped
          rw [spelled, universal_cons (by decide)]
          exact .inl ⟨rfl, by rw [List.length_cons]; omega, Nat.le_add_left _ _⟩
      · next opened =>
          rcases Option.map_eq_some_iff.mp read with ⟨⟨items, rest'⟩, scanned, same⟩
          cases same
          have agrees : Agrees (Json.scanItems more depth' (universal false (skip after)))
              (valuesOf items) _ (universal false rest') _ :=
            before.items scanned short depth' (by omega)
          split
          · next equal => exact absurd equal (universal_ne (by decide) opened _)
          · exact (agrees.map Value.list).later (Nat.le_succ_of_le skipped) Nat.succ_le_succ
  · next after =>
      rcases depth with _ | depth
      · cases read
      simp only at read
      rw [universal_cons (by decide)] at enough ⊢
      rw [List.length_cons] at enough
      rcases depth' with _ | depth'
      · exact .inr rfl
      have skipped := length_skip (universal false after)
      rw [skip_universal] at skipped
      rw [Json.scanValue.eq_def]
      simp only
      rw [skip_universal]
      split at read
      · next closed spelled =>
          cases read
          rw [spelled, universal_cons (by decide), List.length_cons] at skipped
          rw [spelled, universal_cons (by decide)]
          exact .inl ⟨rfl, by rw [List.length_cons]; omega, Nat.le_add_left _ _⟩
      · next opened =>
          rcases Option.map_eq_some_iff.mp read with ⟨⟨fields, rest'⟩, scanned, same⟩
          cases same
          have agrees : Agrees (Json.scanFields more depth' [] (universal false (skip after)))
              (putAll (fieldsOf fields) []) _ (universal false rest') _ :=
            before.fields scanned short depth' [] (by omega)
          split
          · next equal => exact absurd equal (universal_ne (by decide) opened _)
          · exact (agrees.map Value.dict).later (Nat.le_succ_of_le skipped) Nat.succ_le_succ
  · next quote bracket brace =>
      have number := scanAtom_universal read short
      have plain : ∀ char rest, universal false chars = char :: rest →
          char ≠ '"' ∧ char ≠ '[' ∧ char ≠ '\x7b' := by
        intro char rest' spelled
        refine ⟨?_, ?_, ?_⟩
        · rintro rfl
          exact universal_ne (by decide) quote _ spelled
        · rintro rfl
          exact universal_ne (by decide) bracket _ spelled
        · rintro rfl
          exact universal_ne (by decide) brace _ spelled
      rw [scanValue_atom more depth' plain]
      exact .inl ⟨number.1, number.2.1, by omega⟩

/-- A mark that comes next is still there, and something is left before it. -/
theorem skip_mark {mark : Char} (visible : Json.isSpace mark = false) {chars rest : Line}
    (spelled : skip chars = mark :: rest) :
    skip (universal false chars) = mark :: universal false rest ∧
      (universal false rest).length < (universal false chars).length := by
  have skipped := length_skip (universal false chars)
  rw [skip_universal, spelled, universal_visible false visible] at skipped ⊢
  exact ⟨rfl, skipped⟩

theorem stepAgrees_items {steps : Nat} (before : StepAgrees steps) {depth : Nat} {chars rest : Line}
    {items : List Tree} (read : scanItems (steps + 1) depth chars = some (items, rest))
    (short : ShortItems items) {more : Nat} (depth' : Nat)
    (enough : 2 * (universal false chars).length + 2 ≤ more) :
    Agrees (Json.scanItems more depth' (universal false chars)) (valuesOf items)
      (universal false chars) (universal false rest) (heightItems items ≤ depth') := by
  rcases more with _ | more
  · exact absurd enough (by omega)
  rw [scanItems] at read
  rcases Option.bind_eq_some_iff.mp read with ⟨⟨tree, after⟩, scanned, read⟩
  rw [Json.scanItems]
  simp only at read
  split at read
  · next next spelled =>
      rcases Option.bind_eq_some_iff.mp read with ⟨⟨others, rest'⟩, scanned', same⟩
      cases same
      have first : Agrees (Json.scanValue more depth' (universal false chars)) (valueOf tree) _ _
          _ := before.value scanned short.1 depth' (by omega)
      refine first.bind fun shorter fits => ?_
      rcases skip_mark (by decide) spelled with ⟨mark, left⟩
      have skipped := length_skip (universal false next)
      rw [skip_universal] at skipped
      simp only [mark, skip_universal]
      have agrees : Agrees (Json.scanItems more depth' (universal false (skip next)))
          (valuesOf others) _ (universal false rest') _ :=
        before.items scanned' short.2 depth' (by omega)
      exact (agrees.map fun others => valueOf tree :: others).later (by omega) (max_le fits)
  · next next spelled =>
      cases read
      have first : Agrees (Json.scanValue more depth' (universal false chars)) (valueOf tree) _ _
          _ := before.value scanned short.1 depth' (by omega)
      refine first.bind fun shorter fits => ?_
      rcases skip_mark (by decide) spelled with ⟨mark, left⟩
      simp only [mark]
      exact .inl ⟨rfl, by omega, max_le fits (Nat.zero_le _)⟩
  · cases read

/-- What `json` does after the value of a field. -/
def fieldAfter (more depth : Nat) (into : List (String × Value)) (name : String)
    (scanned : Value × List Char) : Except Python.Raised (List (String × Value) × List Char) :=
  match skip scanned.2 with
  | ',' :: rest => Json.scanFields more depth (Table.put name scanned.1 into) (skip rest)
  | '\x7d' :: rest => .ok (Table.put name scanned.1 into, rest)
  | _ => .error .valueError

theorem stepAgrees_fields {steps : Nat} (before : StepAgrees steps) {depth : Nat}
    {chars rest : Line}
    {fields : List (Line × Tree)} (read : scanFields (steps + 1) depth chars = some (fields, rest))
    (short : ShortFields fields) {more : Nat} (depth' : Nat) (into : List (String × Value))
    (enough : 2 * (universal false chars).length + 2 ≤ more) :
    Agrees (Json.scanFields more depth' into (universal false chars))
      (putAll (fieldsOf fields) into) (universal false chars) (universal false rest)
      (heightFields fields ≤ depth') := by
  rcases more with _ | more
  · exact absurd enough (by omega)
  rw [scanFields.eq_def] at read
  simp only at read
  split at read
  · next text =>
      rcases Option.bind_eq_some_iff.mp read with ⟨⟨name, colon⟩, scanned, read⟩
      simp only at read
      split at read
      · next gap spelled =>
          rcases Option.bind_eq_some_iff.mp read with ⟨⟨tree, after⟩, scanned', read⟩
          simp only at read
          rcases scanString_universal scanned with ⟨reads, named⟩
          rcases skip_mark (by decide) spelled with ⟨mark, left⟩
          have skipped := length_skip (universal false gap)
          rw [skip_universal] at skipped
          have own : quoted (universal false text) = .ok (.ofList name, universal false colon) := by
            rw [quoted, reads]
          rw [universal_cons (by decide)] at enough ⊢
          rw [List.length_cons] at enough
          have unfolded : Json.scanFields (more + 1) depth' into ('"' :: universal false text) =
              (Json.scanValue more depth' (universal false (skip gap))).bind
                (fieldAfter more depth' into (.ofList name)) := by
            rw [Json.scanFields.eq_def]
            simp only [own, mark, skip_universal, bind, Except.bind]
            rfl
          rw [unfolded]
          split at read
          · next next spelled' =>
              rcases Option.bind_eq_some_iff.mp read with ⟨⟨others, rest'⟩, scanned'', same⟩
              cases same
              have first : Agrees (Json.scanValue more depth' (universal false (skip gap)))
                  (valueOf tree) _ _ _ := before.value scanned' short.1 depth' (by omega)
              refine (first.later (by rw [List.length_cons]; omega) id).bind fun shorter fits => ?_
              rcases skip_mark (by decide) spelled' with ⟨mark', left'⟩
              have skipped' := length_skip (universal false next)
              rw [skip_universal] at skipped'
              rw [List.length_cons] at shorter
              simp only [fieldAfter, mark', skip_universal]
              have agrees : Agrees (Json.scanFields more depth'
                  (Table.put (.ofList name) (valueOf tree) into) (universal false (skip next)))
                  (putAll (fieldsOf others) (Table.put (.ofList name) (valueOf tree) into)) _
                  (universal false rest') _ :=
                before.fields scanned'' short.2 depth' _ (by omega)
              exact agrees.later (by rw [List.length_cons]; omega) (max_le fits)
          · next next spelled' =>
              cases read
              have first : Agrees (Json.scanValue more depth' (universal false (skip gap)))
                  (valueOf tree) _ _ _ := before.value scanned' short.1 depth' (by omega)
              refine (first.later (by rw [List.length_cons]; omega) id).bind fun shorter fits => ?_
              rcases skip_mark (by decide) spelled' with ⟨mark', left'⟩
              rw [List.length_cons] at shorter
              simp only [fieldAfter, mark']
              exact .inl ⟨rfl, by rw [List.length_cons]; omega, max_le fits (Nat.zero_le _)⟩
          · cases read
      · cases read
  · cases read

theorem stepAgrees (steps : Nat) : StepAgrees steps := by
  induction steps with
  | zero =>
      constructor
      · intro depth chars tree rest read
        cases read
      · intro depth chars items rest read
        cases read
      · intro depth chars fields rest read
        cases read
  | succ steps before =>
      constructor
      · exact fun read short more => stepAgrees_value before read short
      · exact fun read short more => stepAgrees_items before read short
      · exact fun read short more => stepAgrees_fields before read short

/-! ## Texts with one value -/

/-- What Go reads at some depth it reads at any that is enough for the value. -/
structure StepDeeper (steps : Nat) : Prop where
  value : ∀ {depth chars tree rest}, scanValue steps depth chars = some (tree, rest) →
    ∀ more, tree.height ≤ more → scanValue steps more chars = some (tree, rest)
  items : ∀ {depth chars items rest}, scanItems steps depth chars = some (items, rest) →
    ∀ more, heightItems items ≤ more → scanItems steps more chars = some (items, rest)
  fields : ∀ {depth chars fields rest}, scanFields steps depth chars = some (fields, rest) →
    ∀ more, heightFields fields ≤ more → scanFields steps more chars = some (fields, rest)

theorem stepDeeper_value {steps : Nat} (before : StepDeeper steps) {depth : Nat} {chars rest : Line}
    {tree : Tree} (read : scanValue (steps + 1) depth chars = some (tree, rest)) (more : Nat)
    (enough : tree.height ≤ more) : scanValue (steps + 1) more chars = some (tree, rest) := by
  rw [scanValue.eq_def] at read ⊢
  simp only at read ⊢
  split at read
  · exact read
  · next after =>
      rcases depth with _ | depth
      · cases read
      simp only at read
      split at read
      · next closed spelled =>
          cases read
          rcases more with _ | more
          · cases enough
          rfl
      · next opened =>
          rcases Option.map_eq_some_iff.mp read with ⟨⟨items, rest'⟩, scanned, same⟩
          cases same
          rcases more with _ | more
          · cases enough
          simp only
          rw [before.items scanned more (Nat.le_of_succ_le_succ enough)]
          rfl
  · next after =>
      rcases depth with _ | depth
      · cases read
      simp only at read
      split at read
      · next closed spelled =>
          cases read
          rcases more with _ | more
          · cases enough
          rfl
      · next opened =>
          rcases Option.map_eq_some_iff.mp read with ⟨⟨fields, rest'⟩, scanned, same⟩
          cases same
          rcases more with _ | more
          · cases enough
          simp only
          rw [before.fields scanned more (Nat.le_of_succ_le_succ enough)]
          rfl
  · exact read

theorem stepDeeper_items {steps : Nat} (before : StepDeeper steps) {depth : Nat} {chars rest : Line}
    {items : List Tree} (read : scanItems (steps + 1) depth chars = some (items, rest)) (more : Nat)
    (enough : heightItems items ≤ more) :
    scanItems (steps + 1) more chars = some (items, rest) := by
  rw [scanItems] at read ⊢
  rcases Option.bind_eq_some_iff.mp read with ⟨⟨tree, after⟩, scanned, read⟩
  simp only at read
  split at read
  · next next spelled =>
      rcases Option.bind_eq_some_iff.mp read with ⟨⟨others, rest'⟩, scanned', same⟩
      cases same
      rw [before.value scanned more (le_of_max_le_left enough)]
      simp only [Option.bind_eq_bind, Option.bind_some, spelled]
      rw [before.items scanned' more (le_of_max_le_right enough)]
      rfl
  · next next spelled =>
      cases read
      rw [before.value scanned more (le_of_max_le_left enough)]
      simp only [Option.bind_eq_bind, Option.bind_some, spelled]
      rfl
  · cases read

theorem stepDeeper_fields {steps : Nat} (before : StepDeeper steps) {depth : Nat}
    {chars rest : Line} {fields : List (Line × Tree)}
    (read : scanFields (steps + 1) depth chars = some (fields, rest)) (more : Nat)
    (enough : heightFields fields ≤ more) :
    scanFields (steps + 1) more chars = some (fields, rest) := by
  rw [scanFields.eq_def] at read ⊢
  simp only at read ⊢
  split at read
  · next text =>
      rcases Option.bind_eq_some_iff.mp read with ⟨⟨name, colon⟩, scanned, read⟩
      simp only [Option.bind_eq_bind, scanned, Option.bind_some] at read ⊢
      split at read
      · next gap spelled =>
          rcases Option.bind_eq_some_iff.mp read with ⟨⟨tree, after⟩, scanned', read⟩
          simp only at read
          split at read
          · next next spelled' =>
              rcases Option.bind_eq_some_iff.mp read with ⟨⟨others, rest'⟩, scanned'', same⟩
              cases same
              rw [before.value scanned' more (le_of_max_le_left enough)]
              simp only [Option.bind_some, spelled']
              rw [before.fields scanned'' more (le_of_max_le_right enough)]
              rfl
          · next next spelled' =>
              cases read
              rw [before.value scanned' more (le_of_max_le_left enough)]
              simp only [Option.bind_some, spelled']
              rfl
          · cases read
      · cases read
  · cases read

theorem stepDeeper (steps : Nat) : StepDeeper steps := by
  induction steps with
  | zero =>
      constructor
      · intro depth chars tree rest read
        cases read
      · intro depth chars items rest read
        cases read
      · intro depth chars fields rest read
        cases read
  | succ steps before =>
      constructor
      · exact fun read more enough => stepDeeper_value before read more enough
      · exact fun read more enough => stepDeeper_items before read more enough
      · exact fun read more enough => stepDeeper_fields before read more enough

theorem parseWithin_deeper {depth : Nat} {text : Line} {tree : Tree}
    (read : parseWithin depth text = some tree) {more : Nat} (enough : tree.height ≤ more) :
    parseWithin more text = some tree := by
  rcases Option.bind_eq_some_iff.mp read with ⟨⟨tree', rest⟩, scanned, read⟩
  simp only at read
  split at read
  · next spelled =>
      cases read
      rw [parseWithin, (stepDeeper _).value scanned more enough]
      simp only [Option.bind_eq_bind, Option.bind_some, spelled]
      rfl
  · cases read

/-- What Go reads, at whatever depth, Python reads as well, unless it nests too deep for the
interpreter. -/
theorem loads_of_parse {depth : Nat} {text : Line} {tree : Tree}
    (read : parseWithin depth text = some tree) (short : Short tree) (more : Nat) :
    Json.loads more (.ofList (universal false text)) = .ok (valueOf tree) ∧ tree.height ≤ more ∨
      Json.loads more (.ofList (universal false text)) = .error .recursionError := by
  rcases Option.bind_eq_some_iff.mp read with ⟨⟨tree', rest⟩, scanned, read⟩
  simp only at read
  split at read
  · next spelled =>
      cases read
      have agrees : Agrees (Json.scanValue (2 * (universal false (skip text)).length + 1) more
          (universal false (skip text))) (valueOf tree) _ (universal false rest) _ :=
        (stepAgrees _).value scanned short more (Nat.le_refl _)
      have ended : skip (universal false rest) = [] := by
        rw [skip_universal, spelled]
        rfl
      simp only [Json.loads, String.toList_ofList, skip_universal]
      rcases agrees with ⟨same, _, fits⟩ | same
      · left
        simp only [same, bind, Except.bind, ended]
        exact ⟨rfl, fits⟩
      · right
        rw [same]
        rfl
  · cases read

end Homelab.GoJson
