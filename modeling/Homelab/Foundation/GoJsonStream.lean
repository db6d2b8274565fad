import Homelab.Foundation.JsonAgreement

/-! # Values in a stream

What a value takes off a text does not depend on what follows, as long as a number does not go
on. So a text with one value after another is read value by value.
-/

namespace Homelab.GoJson

open Text Json GoText

/-! ## Numbers -/

def NoDigit (rest : Line) : Prop := ∀ char more, rest = char :: more → char.isDigit = false

theorem NoDigit.of_ends {rest : Line} (ends : Ends rest) : NoDigit rest :=
  fun char more equal => (ends char more equal).1

theorem noDigit_mark {mark : Char} (other : mark.isDigit = false) (rest : Line) :
    NoDigit (mark :: rest) := by
  intro char more equal
  rw [← (List.cons.inj equal).1]
  exact other

theorem span_again {digits : Line} (all : ∀ char ∈ digits, char.isDigit = true) {rest : Line}
    (noDigit : NoDigit rest) : (digits ++ rest).span Char.isDigit = (digits, rest) := by
  have stops : rest.takeWhile Char.isDigit = [] ∧ rest.dropWhile Char.isDigit = rest := by
    cases rest with
    | nil => exact ⟨rfl, rfl⟩
    | cons char more => simp [noDigit char more rfl]
  rw [List.span_eq_takeWhile_dropWhile, List.takeWhile_append_of_pos all,
    List.dropWhile_append_of_pos all, stops.1, stops.2, List.append_nil]

theorem span_parts (chars : Line) :
    chars = (chars.span Char.isDigit).1 ++ (chars.span Char.isDigit).2 ∧
      ∀ char ∈ (chars.span Char.isDigit).1, char.isDigit = true := by
  rw [List.span_eq_takeWhile_dropWhile]
  exact ⟨List.takeWhile_append_dropWhile.symm, fun char => List.mem_takeWhile_imp⟩

theorem scanWhole_local {chars digits rest : Line} (read : scanWhole chars = some (digits, rest)) :
    chars = digits ++ rest ∧ digits ≠ [] ∧
      ∀ tail, NoDigit tail → scanWhole (digits ++ tail) = some (digits, tail) := by
  by_cases zero : ∃ more, chars = '0' :: more
  · rcases zero with ⟨more, rfl⟩
    cases read
    exact ⟨rfl, by simp, fun tail _ => rfl⟩
  · rw [scanWhole_span fun more equal => zero ⟨more, equal⟩] at read
    split at read
    · cases read
    · next some_ =>
        rcases span_parts chars with ⟨whole, all⟩
        have spanned := Option.some.inj read
        rw [spanned] at whole all some_
        refine ⟨whole, some_, fun tail noDigit => ?_⟩
        have nonzero : ∀ more, digits ++ tail ≠ '0' :: more := by
          intro more equal
          cases digits with
          | nil => exact some_ rfl
          | cons first others =>
              have first := (List.cons.inj equal).1
              subst first
              exact zero ⟨_, whole⟩
        rw [scanWhole_span nonzero, span_again all noDigit, if_neg some_]

theorem scanFraction_unread {tail : Line} (other : ∀ more, tail ≠ '.' :: more) :
    scanFraction tail = (none, tail) := by
  rw [scanFraction.eq_def]
  split
  · next more => exact absurd rfl (other more)
  · rfl

theorem scanFraction_point (rest : Line) :
    scanFraction ('.' :: rest) =
      if (rest.span Char.isDigit).1 = [] then (none, '.' :: rest)
      else (some (rest.span Char.isDigit).1, (rest.span Char.isDigit).2) := by
  rw [scanFraction.eq_def]
  simp only
  split
  · next spanned => rw [spanned, if_pos rfl]
  · next some_ spanned => rw [spanned, if_neg some_]

/-- A fraction starts with a point, and ends where a number cannot go on. -/
theorem scanFraction_local (chars : Line) :
    ∃ front, chars = front ++ (scanFraction chars).2 ∧
      (front = [] ∨ ∃ more, front = '.' :: more) ∧
      ∀ tail, NoDigit tail → (∀ more, tail ≠ '.' :: more) →
        scanFraction (front ++ tail) = ((scanFraction chars).1, tail) := by
  by_cases point : ∃ rest, chars = '.' :: rest
  · rcases point with ⟨rest, rfl⟩
    rcases span_parts rest with ⟨whole, all⟩
    rw [scanFraction_point]
    by_cases none_ : (rest.span Char.isDigit).1 = []
    · rw [if_pos none_]
      exact ⟨[], rfl, .inl rfl, fun tail _ other => scanFraction_unread other⟩
    · rw [if_neg none_]
      refine ⟨'.' :: (rest.span Char.isDigit).1, congrArg _ whole, .inr ⟨_, rfl⟩, ?_⟩
      intro tail noDigit _
      rw [List.cons_append, scanFraction_point, span_again all noDigit, if_neg none_]
  · have other : ∀ more, chars ≠ '.' :: more := fun more equal => point ⟨more, equal⟩
    rw [scanFraction_unread other]
    exact ⟨[], rfl, .inl rfl, fun tail _ own => scanFraction_unread own⟩

theorem scanSign_local {chars digits rest : Line} (some_ : digits ≠ [])
    (all : ∀ char ∈ digits, char.isDigit = true) (left : (scanSign chars).2 = digits ++ rest) :
    ∃ sign, chars = sign ++ digits ++ rest ∧
      ∀ tail, scanSign (sign ++ digits ++ tail) = ((scanSign chars).1, digits ++ tail) := by
  rw [scanSign.eq_def] at left ⊢
  split at left
  · exact ⟨['-'], congrArg _ left, fun tail => rfl⟩
  · exact ⟨['+'], congrArg _ left, fun tail => rfl⟩
  · refine ⟨[], left, fun tail => ?_⟩
    cases digits with
    | nil => exact absurd rfl some_
    | cons first more =>
        have digit := all first List.mem_cons_self
        rw [List.nil_append, List.cons_append, scanSign.eq_def]
        split
        · next equal => exact absurd (List.cons.inj equal).1 (ne_of_isDigit digit (by decide))
        · next equal => exact absurd (List.cons.inj equal).1 (ne_of_isDigit digit (by decide))
        · rfl

theorem scanExponent_unread {tail : Line}
    (other : ∀ mark more, tail = mark :: more → ¬ (mark = 'e' ∨ mark = 'E')) :
    scanExponent tail = (none, tail) := by
  cases tail with
  | nil => rfl
  | cons mark more =>
      rw [scanExponent.eq_def]
      simp only [if_neg (other mark more rfl)]

/-- An exponent starts with its mark, and ends where a number cannot go on. -/
theorem scanExponent_local (chars : Line) :
    ∃ front, chars = front ++ (scanExponent chars).2 ∧
      (front = [] ∨ ∃ mark more, front = mark :: more ∧ (mark = 'e' ∨ mark = 'E')) ∧
      ∀ tail, Ends tail → scanExponent (front ++ tail) = ((scanExponent chars).1, tail) := by
  have unread : ∀ tail : Line, Ends tail → scanExponent tail = (none, tail) := by
    intro tail ends
    refine scanExponent_unread fun mark more equal own => ?_
    rcases ends mark more equal with ⟨_, _, small, large⟩
    exact own.elim small large
  by_cases marked : ∃ mark rest, chars = mark :: rest ∧ (mark = 'e' ∨ mark = 'E')
  · rcases marked with ⟨mark, rest, rfl, own⟩
    rw [scanExponent_mark own]
    by_cases none_ : ((scanSign rest).2.span Char.isDigit).1 = []
    · rw [if_pos none_]
      exact ⟨[], rfl, .inl rfl, fun tail ends => unread tail ends⟩
    · rw [if_neg none_]
      rcases span_parts (scanSign rest).2 with ⟨whole, all⟩
      rcases scanSign_local none_ all whole with ⟨sign, parts, again⟩
      refine ⟨mark :: (sign ++ ((scanSign rest).2.span Char.isDigit).1), ?_,
        .inr ⟨mark, _, rfl, own⟩, fun tail ends => ?_⟩
      · exact congrArg _ parts
      · rw [List.cons_append, scanExponent_mark own, again tail, span_again all (.of_ends ends),
          if_neg none_]
  · rw [scanExponent_unread fun mark more equal own => marked ⟨mark, more, equal, own⟩]
    exact ⟨[], rfl, .inl rfl, fun tail ends => unread tail ends⟩

/-- A number from its parts. -/
theorem scanNumeral_of_parts {chars own whole after after' rest : Line} {negative : Bool}
    {fraction : Option Line} {exponent : Option Int} (signed : Signed chars own negative)
    (scanned : scanWhole own = some (whole, after))
    (fractions : scanFraction after = (fraction, after'))
    (exponents : scanExponent after' = (exponent, rest)) :
    scanNumeral chars = some
      (⟨chars.take (chars.length - rest.length), negative, whole, fraction, exponent⟩, rest) := by
  rw [scanNumeral.eq_def]
  split
  next negative' own' signed' =>
  have same : negative' = negative ∧ own' = own := by
    rcases signed with ⟨rfl, rfl⟩ | ⟨unsigned, rfl, rfl⟩
    · cases signed'
      exact ⟨rfl, rfl⟩
    · split at signed'
      · exact absurd rfl (unsigned _)
      · cases signed'
        exact ⟨rfl, rfl⟩
  rcases same with ⟨rfl, rfl⟩
  rw [scanned]
  simp only [fractions, exponents]

theorem scanNumeral_text {chars rest : Line} {numeral : Numeral}
    (read : scanNumeral chars = some (numeral, rest)) :
    numeral.text = chars.take (chars.length - rest.length) := by
  rcases scanNumeral_parts read with ⟨own, after, signed, whole, fraction, exponent⟩
  rw [scanNumeral_of_parts signed whole fraction exponent] at read
  have same := (Prod.mk.inj (Option.some.inj read)).1
  rw [← same]

theorem scanNumeral_local {chars rest : Line} {numeral : Numeral}
    (read : scanNumeral chars = some (numeral, rest)) :
    ∃ front, front ≠ [] ∧ chars = front ++ rest ∧
      ∀ tail, Ends tail → scanNumeral (front ++ tail) = some (numeral, tail) := by
  have text := scanNumeral_text read
  rcases scanNumeral_parts read with ⟨own, after, signed, whole, fraction, exponent⟩
  rcases scanWhole_local whole with ⟨ownParts, some_, wholeAgain⟩
  rcases scanFraction_local after with ⟨decimals, afterParts, point, fractionAgain⟩
  rcases scanExponent_local (scanFraction after).2 with ⟨power, lastParts, mark, exponentAgain⟩
  rw [exponent] at lastParts exponentAgain
  rw [fraction] at fractionAgain
  simp only at lastParts exponentAgain fractionAgain
  have body : own = numeral.whole ++ decimals ++ power ++ rest := by
    rw [ownParts, afterParts, lastParts]
    simp
  -- none of what follows a part goes on with it
  have afterFraction : ∀ tail, Ends tail →
      NoDigit (power ++ tail) ∧ ∀ more, power ++ tail ≠ '.' :: more := by
    intro tail ends
    rcases mark with none_ | ⟨first, more, spelled, own⟩
    · rw [none_]
      exact ⟨.of_ends ends, fun more equal => (ends '.' more equal).2.1 rfl⟩
    · rw [spelled]
      rcases own with rfl | rfl
      · exact ⟨noDigit_mark (by decide) _, fun more equal => by simp at equal⟩
      · exact ⟨noDigit_mark (by decide) _, fun more equal => by simp at equal⟩
  have afterWhole : ∀ tail, Ends tail → NoDigit (decimals ++ (power ++ tail)) := by
    intro tail ends
    rcases point with none_ | ⟨more, spelled⟩
    · rw [none_]
      exact (afterFraction tail ends).1
    · rw [spelled]
      exact noDigit_mark (by decide) _
  have again : ∀ sign tail, Ends tail →
      Signed (sign ++ (numeral.whole ++ (decimals ++ (power ++ tail))))
        (numeral.whole ++ (decimals ++ (power ++ tail))) numeral.negative →
      scanNumeral (sign ++ (numeral.whole ++ (decimals ++ (power ++ tail)))) = some
        (⟨sign ++ (numeral.whole ++ (decimals ++ power)), numeral.negative, numeral.whole,
          numeral.fraction, numeral.exponent⟩, tail) := by
    intro sign tail ends signed
    have scanned := scanNumeral_of_parts signed (wholeAgain _ (afterWhole tail ends))
      (fractionAgain _ (afterFraction tail ends).1 (afterFraction tail ends).2)
      (exponentAgain tail ends)
    rw [scanned]
    have split : sign ++ (numeral.whole ++ (decimals ++ (power ++ tail))) =
        (sign ++ (numeral.whole ++ (decimals ++ power))) ++ tail := by simp
    rw [split, List.length_append, Nat.add_sub_cancel, List.take_left]
  have whole' : ∀ sign tail, Signed (sign ++ (numeral.whole ++ (decimals ++ (power ++ tail))))
        (numeral.whole ++ (decimals ++ (power ++ tail))) numeral.negative → Ends tail →
      chars = sign ++ (numeral.whole ++ (decimals ++ power)) ++ rest →
      scanNumeral (sign ++ (numeral.whole ++ (decimals ++ power)) ++ tail) =
        some (numeral, tail) := by
    intro sign tail signed ends parts
    have scanned := again sign tail ends signed
    have spelled : numeral.text = sign ++ (numeral.whole ++ (decimals ++ power)) := by
      rw [text, parts, List.length_append, Nat.add_sub_cancel, List.take_left]
    rw [← spelled] at scanned
    have shape : sign ++ (numeral.whole ++ (decimals ++ power)) ++ tail =
        sign ++ (numeral.whole ++ (decimals ++ (power ++ tail))) := by simp
    rw [shape]
    exact scanned
  rcases signed with ⟨rfl, negative⟩ | ⟨unsigned, rfl, negative⟩
  · have parts : '-' :: own = ['-'] ++ (numeral.whole ++ (decimals ++ power)) ++ rest := by
      rw [body]
      simp
    exact ⟨_, by simp, parts, fun tail ends => whole' ['-'] tail (.inl ⟨rfl, negative⟩) ends parts⟩
  · have parts : chars = [] ++ (numeral.whole ++ (decimals ++ power)) ++ rest := by
      rw [body]
      simp
    have positive : ∀ tail more, numeral.whole ++ tail ≠ '-' :: more := by
      intro tail more equal
      cases digits : numeral.whole with
      | nil => exact some_ digits
      | cons first others =>
          rw [digits] at equal ownParts
          have minus := (List.cons.inj equal).1
          rw [minus] at ownParts
          exact unsigned _ ownParts
    exact ⟨_, by simp [some_], parts, fun tail ends =>
      whole' [] tail (.inr ⟨positive _, rfl, negative⟩) ends parts⟩

/-! ## Values -/

theorem no_name {chars own after digits : Line} {negative : Bool}
    (signed : Signed chars own negative) (whole : scanWhole own = some (digits, after)) :
    constants.find? (fun constant => constant.1.isPrefixOf chars) = none := by
  rcases scanWhole_first whole with ⟨first, more, rfl, digit⟩
  have other : ∀ char : Char, char.isDigit = false → ¬char = first :=
    fun char different same => ne_of_isDigit digit different same.symm
  rw [List.find?_eq_none]
  intro constant member
  simp only [constants, List.mem_cons, List.not_mem_nil, or_false] at member
  rcases signed with ⟨rfl, _⟩ | ⟨_, rfl, _⟩
  · rcases member with rfl | rfl | rfl <;> simp [List.isPrefixOf]
  · rcases member with rfl | rfl | rfl <;> simp [List.isPrefixOf, other]

theorem scanAtom_name {constant : Line × Tree} (member : constant ∈ constants) (tail : Line) :
    constant.1 ≠ [] ∧ scanAtom (constant.1 ++ tail) = some (constant.2, tail) := by
  simp only [constants, List.mem_cons, List.not_mem_nil, or_false] at member
  rcases member with rfl | rfl | rfl
  · exact ⟨by decide, rfl⟩
  · exact ⟨by decide, rfl⟩
  · exact ⟨by decide, rfl⟩

theorem scanAtom_local {chars rest : Line} {tree : Tree}
    (read : scanAtom chars = some (tree, rest)) :
    ∃ front, front ≠ [] ∧ chars = front ++ rest ∧ (∀ fields, tree ≠ .dict fields) ∧
      ∀ tail, Ends tail → scanAtom (front ++ tail) = some (tree, tail) := by
  rw [scanAtom] at read
  split at read
  · next name constant found =>
      have member := List.mem_of_find?_eq_some found
      have starts := List.find?_some found
      have flat : ∀ fields, constant ≠ Tree.dict fields := by
        intro fields equal
        rw [equal] at member
        simp [constants] at member
      cases read
      simp only at starts
      rcases List.isPrefixOf_iff_prefix.mp starts with ⟨after, rfl⟩
      rw [List.drop_left]
      exact ⟨name, (scanAtom_name member []).1, rfl, flat,
        fun tail _ => (scanAtom_name member tail).2⟩
  · rcases Option.map_eq_some_iff.mp read with ⟨⟨numeral, rest'⟩, scanned, same⟩
    cases same
    rcases scanNumeral_local scanned with ⟨front, some_, parts, again⟩
    refine ⟨front, some_, parts, by simp, fun tail ends => ?_⟩
    have number := again tail ends
    rcases scanNumeral_parts number with ⟨own, after, signed, whole, _, _⟩
    rw [scanAtom, no_name signed whole]
    simp only
    rw [number]
    rfl

/-- A gap is skipped whatever follows the first character after it. -/
theorem skip_local {chars rest : Line} {first : Char} (spelled : skip chars = first :: rest) :
    ∃ gap, chars = gap ++ first :: rest ∧ (∀ char ∈ gap, Json.isSpace char = true) ∧
      ∀ tail, skip (gap ++ first :: tail) = first :: tail := by
  have spaces : ∀ char ∈ chars.takeWhile Json.isSpace, Json.isSpace char = true :=
    fun char => List.mem_takeWhile_imp
  have visible : Json.isSpace first = false := by
    have head : chars.dropWhile Json.isSpace = first :: rest := spelled
    have hidden := List.head_dropWhile_not Json.isSpace (by rw [head]; simp)
    simpa [head] using hidden
  refine ⟨chars.takeWhile Json.isSpace, ?_, spaces, fun tail => ?_⟩
  · rw [← spelled]
    exact List.takeWhile_append_dropWhile.symm
  · rw [skip_append spaces, skip_visible first visible]

/-- A gap before a part of a text. -/
theorem skip_part {chars front rest : Line} (spelled : skip chars = front ++ rest)
    (some_ : front ≠ []) :
    ∃ gap, chars = gap ++ (front ++ rest) ∧
      ∀ tail, skip (gap ++ (front ++ tail)) = front ++ tail := by
  cases front with
  | nil => exact absurd rfl some_
  | cons first more =>
      rcases skip_local spelled with ⟨gap, parts, _, again⟩
      exact ⟨gap, parts, fun tail => again (more ++ tail)⟩

/-- A scan that takes something off has a step for it. -/
theorem step_left {front : Line} (some_ : front ≠ []) {more : Nat}
    (enough : 2 * front.length ≤ more + 1) : ∃ fewer, more = fewer + 1 := by
  have positive := List.length_pos_iff.mpr some_
  exact ⟨more - 1, by omega⟩

/-- A gap and a mark end a number. -/
theorem ends_gap {gap : Line} (spaces : ∀ char ∈ gap, Json.isSpace char = true) {mark : Char}
    (other : mark.isDigit = false ∧ mark ≠ '.' ∧ mark ≠ 'e' ∧ mark ≠ 'E') (rest : Line) :
    Ends (gap ++ mark :: rest) :=
  ends_of_spaces spaces (ends_of_mark rest other)

/-- What the recursion takes off a text, and how many steps it needs for that. -/
structure StepLocal (steps : Nat) : Prop where
  value : ∀ {depth chars tree rest}, scanValue steps depth chars = some (tree, rest) →
    ∃ front, front ≠ [] ∧ chars = front ++ rest ∧ ∀ tail more, 2 * front.length ≤ more + 1 →
      ((∃ fields, tree = .dict fields) ∨ Ends tail) →
      scanValue more depth (front ++ tail) = some (tree, tail)
  items : ∀ {depth chars items rest}, scanItems steps depth chars = some (items, rest) →
    ∃ front, front ≠ [] ∧ chars = front ++ rest ∧ ∀ tail more, 2 * front.length ≤ more + 2 →
      scanItems more depth (front ++ tail) = some (items, tail)
  fields : ∀ {depth chars fields rest}, scanFields steps depth chars = some (fields, rest) →
    ∃ front, front ≠ [] ∧ chars = front ++ rest ∧ ∀ tail more, 2 * front.length ≤ more + 2 →
      scanFields more depth (front ++ tail) = some (fields, tail)

/-- A value that is no text, list or object. -/
theorem scanValue_plain (steps depth : Nat) {chars : Line}
    (plain : ∀ char rest, chars = char :: rest → char ≠ '"' ∧ char ≠ '[' ∧ char ≠ '\x7b') :
    scanValue (steps + 1) depth chars = scanAtom chars := by
  rw [scanValue.eq_def]
  simp only
  split
  · exact absurd rfl (plain _ _ rfl).1
  · exact absurd rfl (plain _ _ rfl).2.1
  · exact absurd rfl (plain _ _ rfl).2.2
  · rfl

theorem stepLocal_value {steps : Nat} (before : StepLocal steps) {depth : Nat} {chars rest : Line}
    {tree : Tree} (read : scanValue (steps + 1) depth chars = some (tree, rest)) :
    ∃ front, front ≠ [] ∧ chars = front ++ rest ∧ ∀ tail more, 2 * front.length ≤ more + 1 →
      ((∃ fields, tree = .dict fields) ∨ Ends tail) →
      scanValue more depth (front ++ tail) = some (tree, tail) := by
  rw [scanValue.eq_def] at read
  simp only at read
  split at read
  · next after =>
      rcases Option.map_eq_some_iff.mp read with ⟨⟨text, rest'⟩, scanned, same⟩
      cases same
      rcases scanString_local scanned with ⟨raw, rfl, own⟩
      refine ⟨'"' :: raw, by simp, rfl, fun tail more enough _ => ?_⟩
      rcases step_left (by simp) enough with ⟨fewer, rfl⟩
      rw [List.cons_append, scanValue.eq_def]
      simp only [own.reads tail]
      rfl
  · next after =>
      rcases depth with _ | depth
      · cases read
      simp only at read
      split at read
      · next closed spelled =>
          cases read
          rcases skip_local spelled with ⟨gap, rfl, _, again⟩
          refine ⟨'[' :: (gap ++ [']']), by simp, by simp, fun tail more enough _ => ?_⟩
          rcases step_left (by simp) enough with ⟨fewer, rfl⟩
          rw [scanValue.eq_def]
          simp only [List.cons_append, List.append_assoc, List.nil_append, again tail]
      · next opened =>
          rcases Option.map_eq_some_iff.mp read with ⟨⟨items, rest'⟩, scanned, same⟩
          cases same
          rcases before.items scanned with ⟨front, some_, parts, reads⟩
          rcases skip_part parts some_ with ⟨gap, rfl, again⟩
          refine ⟨'[' :: (gap ++ front), by simp, by simp, fun tail more enough _ => ?_⟩
          rcases step_left (by simp) enough with ⟨fewer, rfl⟩
          simp only [List.length_cons, List.length_append] at enough
          have inside := reads tail fewer (by omega)
          rw [scanValue.eq_def]
          simp only [List.cons_append, List.append_assoc, again tail]
          split
          · next equal =>
              rw [parts] at opened
              cases front with
              | nil => exact absurd rfl some_
              | cons first others =>
                  exact absurd (congrArg (· :: _) (List.cons.inj equal).1) (opened _)
          · rw [inside]
            rfl
  · next after =>
      rcases depth with _ | depth
      · cases read
      simp only at read
      split at read
      · next closed spelled =>
          cases read
          rcases skip_local spelled with ⟨gap, rfl, _, again⟩
          refine ⟨'\x7b' :: (gap ++ ['\x7d']), by simp, by simp, fun tail more enough _ => ?_⟩
          rcases step_left (by simp) enough with ⟨fewer, rfl⟩
          rw [scanValue.eq_def]
          simp only [List.cons_append, List.append_assoc, List.nil_append, again tail]
      · next opened =>
          rcases Option.map_eq_some_iff.mp read with ⟨⟨fields, rest'⟩, scanned, same⟩
          cases same
          rcases before.fields scanned with ⟨front, some_, parts, reads⟩
          rcases skip_part parts some_ with ⟨gap, rfl, again⟩
          refine ⟨'\x7b' :: (gap ++ front), by simp, by simp, fun tail more enough _ => ?_⟩
          rcases step_left (by simp) enough with ⟨fewer, rfl⟩
          simp only [List.length_cons, List.length_append] at enough
          have inside := reads tail fewer (by omega)
          rw [scanValue.eq_def]
          simp only [List.cons_append, List.append_assoc, again tail]
          split
          · next equal =>
              rw [parts] at opened
              cases front with
              | nil => exact absurd rfl some_
              | cons first others =>
                  exact absurd (congrArg (· :: _) (List.cons.inj equal).1) (opened _)
          · rw [inside]
            rfl
  · next quote bracket brace =>
      rcases scanAtom_local read with ⟨front, some_, rfl, flat, again⟩
      refine ⟨front, some_, rfl, fun tail more enough ends => ?_⟩
      rcases step_left some_ enough with ⟨fewer, rfl⟩
      have ends : Ends tail := by
        rcases ends with dict | ends
        · rcases dict with ⟨fields, same⟩
          exact absurd same (flat fields)
        · exact ends
      rw [scanValue_plain, again tail ends]
      intro char others equal
      cases front with
      | nil => exact absurd rfl some_
      | cons first left =>
          have same := (List.cons.inj equal).1
          subst same
          exact ⟨fun own => quote _ (congrArg (· :: _) own),
            fun own => bracket _ (congrArg (· :: _) own),
            fun own => brace _ (congrArg (· :: _) own)⟩

theorem stepLocal_items {steps : Nat} (before : StepLocal steps) {depth : Nat} {chars rest : Line}
    {items : List Tree} (read : scanItems (steps + 1) depth chars = some (items, rest)) :
    ∃ front, front ≠ [] ∧ chars = front ++ rest ∧ ∀ tail more, 2 * front.length ≤ more + 2 →
      scanItems more depth (front ++ tail) = some (items, tail) := by
  rw [scanItems] at read
  rcases Option.bind_eq_some_iff.mp read with ⟨⟨tree, after⟩, scanned, continues⟩
  rcases before.value scanned with ⟨front, some_, rfl, reads⟩
  have positive := List.length_pos_iff.mpr some_
  simp only at continues
  split at continues
  · next next spelled =>
      rcases Option.bind_eq_some_iff.mp continues with ⟨⟨others, rest'⟩, scanned', same⟩
      cases same
      rcases skip_local spelled with ⟨gap, rfl, spaces, again⟩
      rcases before.items scanned' with ⟨back, some_', parts, reads'⟩
      have positive' := List.length_pos_iff.mpr some_'
      rcases skip_part parts some_' with ⟨gap', rfl, again'⟩
      refine ⟨front ++ (gap ++ ',' :: (gap' ++ back)), by simp, by simp, fun tail more enough => ?_⟩
      simp only [List.length_append, List.length_cons] at enough
      rcases more with _ | more
      · omega
      have first := reads (gap ++ ',' :: (gap' ++ (back ++ tail))) more (by omega)
        (.inr (ends_gap spaces (by decide) _))
      have later := reads' tail more (by omega)
      rw [scanItems]
      simp only [List.append_assoc, List.cons_append, first, bind, Option.bind_some, again, again',
        later]
      rfl
  · next next spelled =>
      cases continues
      rcases skip_local spelled with ⟨gap, rfl, spaces, again⟩
      refine ⟨front ++ (gap ++ [']']), by simp, by simp, fun tail more enough => ?_⟩
      simp only [List.length_append, List.length_cons] at enough
      rcases more with _ | more
      · omega
      have first := reads (gap ++ ']' :: tail) more (by omega)
        (.inr (ends_gap spaces (by decide) _))
      rw [scanItems]
      simp only [List.append_assoc, List.cons_append, List.nil_append, first, bind,
        Option.bind_some, again]
      rfl
  · cases continues

theorem stepLocal_fields {steps : Nat} (before : StepLocal steps) {depth : Nat} {chars rest : Line}
    {fields : List (Line × Tree)}
    (read : scanFields (steps + 1) depth chars = some (fields, rest)) :
    ∃ front, front ≠ [] ∧ chars = front ++ rest ∧ ∀ tail more, 2 * front.length ≤ more + 2 →
      scanFields more depth (front ++ tail) = some (fields, tail) := by
  rw [scanFields.eq_def] at read
  simp only at read
  split at read
  · next text =>
      rcases Option.bind_eq_some_iff.mp read with ⟨⟨name, colon⟩, scanned, continues⟩
      rcases scanString_local scanned with ⟨raw, rfl, quotes⟩
      simp only at continues
      split at continues
      · next next spelled =>
          rcases skip_local spelled with ⟨gap, rfl, spaces, again⟩
          rcases Option.bind_eq_some_iff.mp continues with ⟨⟨tree, after⟩, scanned', closes⟩
          rcases before.value scanned' with ⟨front, some_, parts, reads⟩
          have positive := List.length_pos_iff.mpr some_
          rcases skip_part parts some_ with ⟨inner, rfl, shown⟩
          simp only at closes
          split at closes
          · next next spelled' =>
              rcases Option.bind_eq_some_iff.mp closes with ⟨⟨others, rest'⟩, scanned'', same⟩
              cases same
              rcases skip_local spelled' with ⟨gap', rfl, spaces', again'⟩
              rcases before.fields scanned'' with ⟨back, some_', parts', reads'⟩
              have positive' := List.length_pos_iff.mpr some_'
              rcases skip_part parts' some_' with ⟨inner', rfl, shown'⟩
              refine ⟨'"' :: (raw ++ (gap ++ ':' :: (inner ++ (front ++ (gap' ++ ',' ::
                (inner' ++ back)))))), by simp, by simp, fun tail more enough => ?_⟩
              simp only [List.length_append, List.length_cons] at enough
              rcases more with _ | more
              · omega
              have first := reads (gap' ++ ',' :: (inner' ++ (back ++ tail))) more (by omega)
                (.inr (ends_gap spaces' (by decide) _))
              have later := reads' tail more (by omega)
              rw [List.cons_append, scanFields.eq_def]
              simp only [List.append_assoc, List.cons_append, quotes.reads, bind,
                Option.bind_some, again, shown, first, again', shown', later]
              rfl
          · next next spelled' =>
              cases closes
              rcases skip_local spelled' with ⟨gap', rfl, spaces', again'⟩
              refine ⟨'"' :: (raw ++ (gap ++ ':' :: (inner ++ (front ++ (gap' ++ ['\x7d']))))),
                by simp, by simp, fun tail more enough => ?_⟩
              simp only [List.length_append, List.length_cons] at enough
              rcases more with _ | more
              · omega
              have first := reads (gap' ++ '\x7d' :: tail) more (by omega)
                (.inr (ends_gap spaces' (by decide) _))
              rw [List.cons_append, scanFields.eq_def]
              simp only [List.append_assoc, List.cons_append, List.nil_append, quotes.reads, bind,
                Option.bind_some, again, shown, first, again']
              rfl
          · cases closes
      · cases continues
  · cases read

theorem stepLocal (steps : Nat) : StepLocal steps := by
  induction steps with
  | zero =>
      constructor
      · intro depth chars tree rest read
        cases read
      · intro depth chars items rest read
        cases read
      · intro depth chars fields rest read
        cases read
  | succ steps before =>
      constructor
      · exact fun read => stepLocal_value before read
      · exact fun read => stepLocal_items before read
      · exact fun read => stepLocal_fields before read

/-! ## Objects -/

/-- An object is read off the front of a text, whatever follows it. -/
theorem scanValue_object {steps depth : Nat} {chars rest : Line} {fields : List (Line × Tree)}
    (read : scanValue steps depth chars = some (.dict fields, rest)) :
    ∃ front, front ≠ [] ∧ chars = front ++ rest ∧ ∀ tail more, 2 * front.length ≤ more + 1 →
      scanValue more depth (front ++ tail) = some (.dict fields, tail) := by
  rcases (stepLocal steps).value read with ⟨front, some_, parts, again⟩
  exact ⟨front, some_, parts, fun tail more enough => again tail more enough (.inl ⟨fields, rfl⟩)⟩

/-- Objects one after another: each piece of the text is one, with the space around it. -/
def Objects (depth : Nat) (text : Line) (rows : List (List (Line × Tree))) : Prop :=
  ∃ pieces space, text = pieces.flatten ++ space ∧ (∀ char ∈ space, Json.isSpace char = true) ∧
    List.Forall₂ (fun piece fields => parseWithin depth piece = some (.dict fields)) pieces rows

def nextObject (depth : Nat) (text : Line) : Option (List (Line × Tree) × Line) :=
  match scanValue (2 * (skip text).length + 1) depth (skip text) with
  | some (.dict fields, rest) => some (fields, rest)
  | _ => none

theorem nextObject_eq_some {depth : Nat} {text rest : Line} {fields : List (Line × Tree)}
    (read : nextObject depth text = some (fields, rest)) :
    scanValue (2 * (skip text).length + 1) depth (skip text) = some (.dict fields, rest) := by
  rw [nextObject] at read
  split at read
  · next own scanned =>
      cases read
      exact scanned
  · cases read

/-- What is read first is a piece of its own. -/
theorem nextObject_piece {depth : Nat} {text rest : Line} {fields : List (Line × Tree)}
    (read : nextObject depth text = some (fields, rest)) :
    ∃ piece, text = piece ++ rest ∧ piece ≠ [] ∧ parseWithin depth piece = some (.dict fields) := by
  rcases scanValue_object (nextObject_eq_some read) with ⟨front, some_, parts, again⟩
  rcases skip_part parts some_ with ⟨gap, whole, shown⟩
  refine ⟨gap ++ front, by rw [whole, List.append_assoc], by simp [some_], ?_⟩
  have alone := shown []
  rw [List.append_nil] at alone
  have scanned := again [] (2 * front.length + 1) (by omega)
  rw [List.append_nil] at scanned
  simp only [parseWithin, alone, scanned, bind, Option.bind_some]
  rfl

/-- A piece is read first wherever it stands first. -/
theorem nextObject_of_piece {depth : Nat} {piece : Line} {fields : List (Line × Tree)}
    (read : parseWithin depth piece = some (.dict fields)) :
    piece ≠ [] ∧ ∃ space, (∀ char ∈ space, Json.isSpace char = true) ∧ ∀ gap tail,
      (∀ char ∈ gap, Json.isSpace char = true) →
      nextObject depth (gap ++ (piece ++ tail)) = some (fields, space ++ tail) := by
  rcases Option.bind_eq_some_iff.mp read with ⟨⟨tree, space⟩, scanned, closed⟩
  have spaces : skip space = [] ∧ tree = .dict fields := by
    simp only at closed
    split at closed
    · next none_ => exact ⟨none_, Option.some.inj closed⟩
    · cases closed
  rcases spaces with ⟨blank, rfl⟩
  rcases scanValue_object scanned with ⟨front, some_, parts, again⟩
  rcases skip_part parts some_ with ⟨inner, rfl, shown⟩
  refine ⟨by simp [some_], space, List.dropWhile_eq_nil_iff.mp blank, fun gap tail spaces => ?_⟩
  have start : skip (gap ++ (inner ++ (front ++ space) ++ tail)) = front ++ (space ++ tail) := by
    rw [skip_append spaces, List.append_assoc, List.append_assoc, shown]
  rw [nextObject, start, again (space ++ tail) _ (by rw [List.length_append]; omega)]

end Homelab.GoJson
