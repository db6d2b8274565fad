import Homelab.Foundation.GoJsonStream

/-! # Counting log lines

A log query answers with a stream of objects, each with a count. The sum is exact, or there
is an error: an answer that has changed its shape is no zero.
-/

namespace Homelab.LogStats

open Text (Line)
open GoText GoJson

/-! ## The counter -/

inductive Failure
  | invalid
  | ambiguous
  | missing
  | wrongType
  | overflowing
  | empty
deriving DecidableEq

/-- The names of the count, the canonical one first. -/
def countKeys : List String := ["count(*)", "count()", "cnt", "rows"]

def member (row : List (Line × Tree)) (key : String) : Option Tree :=
  (row.reverse.find? fun field => field.1 = key.toList).map Prod.snd

/-- What one `Decode` comes to. `null` leaves the row without a map. -/
inductive Decoded
  | eof
  | failed
  | row (fields : List (Line × Tree)) (rest : Line)

def decode (text : Line) : Decoded :=
  if Json.skip text = [] then .eof
  else
    match scanValue (2 * (Json.skip text).length + 1) maxNestingDepth (Json.skip text) with
    | some (.dict fields, rest) => .row fields rest
    | some (.null, rest) => .row [] rest
    | _ => .failed

def foundNext (row : List (Line × Tree)) (found : Option Tree) (key : String) :
    Except Failure (Option Tree) :=
  match member row key, found with
  | none, _ => .ok found
  | some value, none => .ok (some value)
  | some _, some _ => .error .ambiguous

def rawOf : Tree → Option Line
  | .str text => some text
  | .number numeral => some numeral.text
  | _ => none

def maxInt64 : Int := 2 ^ 63 - 1

def addRow (row : List (Line × Tree)) (total : Int) : Except Failure Int := do
  match ← countKeys.foldlM (foundNext row) none with
  | none => throw .missing
  | some value =>
      match rawOf value with
      | none => throw .wrongType
      | some raw =>
          match parseInt raw with
          | .number n =>
              if n < 0 ∨ maxInt64 - n < total then throw .overflowing else return total + n
          | _ => throw .overflowing

/-- `steps` bounds the rows and never runs out. -/
def countFrom (steps : Nat) (text : Line) (total : Int) (rows : Nat) : Int × Option Failure :=
  match steps with
  | 0 => (0, some .invalid)
  | steps + 1 =>
      match decode text with
      | .eof => if rows = 0 then (0, some .empty) else (total, none)
      | .failed => (0, some .invalid)
      | .row fields rest =>
          match addRow fields total with
          | .error failure => (0, some failure)
          | .ok total => countFrom steps rest total (rows + 1)

/-- `Count`, of the bytes of a stream. -/
def count (bytes : Line) : Int × Option Failure :=
  countFrom ((runes bytes).length + 1) (runes bytes) 0 0

example : count "\x7b\"cnt\":3\x7d\n\x7b\"rows\":\"4\"\x7d".toList = (7, none) := by decide +kernel

/-! ## What a row says -/

/-- A whole number in base 10 that is not negative. -/
def Denotes (raw : Line) (number : Nat) : Prop :=
  ∃ sign digits, raw = sign ++ digits ∧ digits ≠ [] ∧ (∀ char ∈ digits, char.isDigit = true) ∧
    Json.natOf digits = number ∧ (sign = [] ∨ sign = ['+'] ∨ (sign = ['-'] ∧ number = 0))

/-- The row has exactly one of the keys, and this under it. -/
def HasCount (row : List (Line × Tree)) (value : Tree) : Prop :=
  ∃ key ∈ countKeys, member row key = some value ∧
    ∀ other ∈ countKeys, other ≠ key → member row other = none

/-- The count of the row is a number or a text that denotes the number. -/
def Says (row : List (Line × Tree)) (number : Nat) : Prop :=
  ∃ value raw, HasCount row value ∧ rawOf value = some raw ∧ Denotes raw number

/-! ## Numbers -/

theorem natOf_cons (value : Nat) (digits : Line) :
    value ≤ digits.foldl (fun value char => value * 10 + (char.toNat - 48)) value := by
  induction digits generalizing value with
  | nil => exact le_refl value
  | cons char rest induction =>
      rw [List.foldl_cons]
      have step := induction (value * 10 + (char.toNat - 48))
      omega

theorem parseUint_ok {digits : Line} {value number : Nat}
    (parsed : parseUint value digits = .ok number) :
    (∀ char ∈ digits, char.isDigit = true) ∧
      digits.foldl (fun value char => value * 10 + (char.toNat - 48)) value = number := by
  induction digits generalizing value with
  | nil =>
      cases parsed
      exact ⟨by simp, rfl⟩
  | cons char rest induction =>
      rw [parseUint] at parsed
      split at parsed
      · next digit =>
          simp only at parsed
          split at parsed
          · rcases induction parsed with ⟨all, sum⟩
            exact ⟨List.forall_mem_cons.mpr ⟨digit, all⟩, sum⟩
          · cases parsed
      · cases parsed

theorem parseUint_digits {digits : Line} (all : ∀ char ∈ digits, char.isDigit = true)
    {value number : Nat} (small : number < 2 ^ 64)
    (sum : digits.foldl (fun value char => value * 10 + (char.toNat - 48)) value = number) :
    parseUint value digits = .ok number := by
  induction digits generalizing value with
  | nil => exact congrArg _ sum
  | cons char rest induction =>
      rw [List.foldl_cons] at sum
      have bound := natOf_cons (value * 10 + (char.toNat - 48)) rest
      rw [parseUint, if_pos (all char List.mem_cons_self)]
      simp only
      rw [if_pos (by omega)]
      exact induction (fun own member => all own (List.mem_cons_of_mem _ member)) sum

theorem denotes_of_parseInt {raw : Line} {value : Int} (parsed : parseInt raw = .number value)
    (positive : 0 ≤ value) : Denotes raw value.toNat := by
  have signed : ∀ negative digits, parseSigned negative digits = .number value →
      digits ≠ [] ∧ (∀ char ∈ digits, char.isDigit = true) ∧
        Json.natOf digits = value.toNat ∧ (negative = true → value.toNat = 0) := by
    intro negative digits parsed
    rw [parseSigned] at parsed
    split at parsed
    · cases parsed
    · next some_ =>
        split at parsed
        · cases parsed
        · cases parsed
        · next number unsigned =>
            rcases parseUint_ok unsigned with ⟨all, sum⟩
            refine ⟨some_, all, ?_⟩
            change Json.natOf digits = number at sum
            cases negative with
            | true =>
                simp only [if_true] at parsed
                split at parsed
                · cases parsed
                  omega
                · cases parsed
            | false =>
                simp only [Bool.false_eq_true, if_false] at parsed
                split at parsed
                · cases parsed
                  exact ⟨by omega, by simp⟩
                · cases parsed
  rw [parseInt.eq_def] at parsed
  split at parsed
  · rcases signed true _ parsed with ⟨some_, all, sum, zero⟩
    exact ⟨['-'], _, rfl, some_, all, sum, .inr (.inr ⟨rfl, zero rfl⟩)⟩
  · rcases signed false _ parsed with ⟨some_, all, sum, _⟩
    exact ⟨['+'], _, rfl, some_, all, sum, .inr (.inl rfl)⟩
  · rcases signed false _ parsed with ⟨some_, all, sum, _⟩
    exact ⟨[], _, rfl, some_, all, sum, .inl rfl⟩

theorem parseInt_of_denotes {raw : Line} {number : Nat} (denotes : Denotes raw number)
    (small : (number : Int) ≤ maxInt64) : parseInt raw = .number number := by
  rcases denotes with ⟨sign, digits, rfl, some_, all, sum, signs⟩
  rw [maxInt64] at small
  have unsigned := parseUint_digits all (by omega) sum
  have positive : parseSigned false digits = .number number := by
    simp only [parseSigned, if_neg some_, unsigned, Bool.false_eq_true, if_false]
    rw [if_pos (by omega)]
  rcases signs with rfl | rfl | ⟨rfl, zero⟩
  · cases digits with
    | nil => exact absurd rfl some_
    | cons first more =>
        have digit := all first List.mem_cons_self
        rw [List.nil_append, parseInt.eq_def]
        split
        · next equal =>
            exact absurd (List.cons.inj equal).1 (Json.ne_of_isDigit digit (by decide))
        · next equal =>
            exact absurd (List.cons.inj equal).1 (Json.ne_of_isDigit digit (by decide))
        · exact positive
  · exact positive
  · subst zero
    show parseSigned true digits = _
    simp only [parseSigned, if_neg some_, unsigned, if_true]
    rw [if_pos (by omega)]
    rfl

/-! ## Rows -/

theorem foldlM_found (row : List (Line × Tree)) (found : Option Tree) :
    countKeys.foldlM (foundNext row) none = .ok found ↔
      match found with
      | none => ∀ key ∈ countKeys, member row key = none
      | some value => HasCount row value := by
  simp only [countKeys, HasCount, List.foldlM_cons, List.foldlM_nil, List.mem_cons,
    List.not_mem_nil, or_false, forall_eq_or_imp, forall_eq, exists_eq_or_imp, exists_eq_left,
    foundNext]
  generalize member row "count(*)" = first
  generalize member row "count()" = second
  generalize member row "cnt" = third
  generalize member row "rows" = fourth
  cases first <;> cases second <;> cases third <;> cases fourth <;> cases found <;>
    simp [bind, Except.bind, pure, Except.pure]

/-- A row is added as long as it says a number and the sum stays in the range. -/
theorem addRow_ok {row : List (Line × Tree)} {total sum : Int}
    (added : addRow row total = .ok sum) :
    ∃ number : Nat, Says row number ∧ sum = total + number ∧ sum ≤ maxInt64 := by
  rw [addRow] at added
  cases found : countKeys.foldlM (foundNext row) none with
  | error failure =>
      rw [found] at added
      cases added
  | ok value =>
      rw [found] at added
      cases value with
      | none => cases added
      | some value =>
          have has := (foldlM_found row (some value)).mp found
          simp only [bind, Except.bind] at added
          cases raw : rawOf value with
          | none =>
              rw [raw] at added
              cases added
          | some text =>
              rw [raw] at added
              simp only at added
              split at added
              · next number parsed =>
                  split at added
                  · cases added
                  · next inside =>
                      have same : total + number = sum := Except.ok.inj added
                      rw [not_or, not_lt, not_lt] at inside
                      have said := denotes_of_parseInt parsed inside.1
                      exact ⟨number.toNat, ⟨value, text, has, raw, said⟩, by omega, by omega⟩
              · cases added

theorem addRow_of_count {row : List (Line × Tree)} {total : Int} {number : Nat}
    (said : Says row number) (positive : 0 ≤ total) (small : total + number ≤ maxInt64) :
    addRow row total = .ok (total + number) := by
  rcases said with ⟨value, text, has, raw, denotes⟩
  have found := (foldlM_found row (some value)).mpr has
  have parsed := parseInt_of_denotes denotes (by omega)
  rw [addRow, found]
  simp only [bind, Except.bind, raw, parsed]
  rw [if_neg (by omega)]
  rfl

/-! ## Streams -/

theorem decode_eof_iff (text : Line) : decode text = .eof ↔ Json.skip text = [] := by
  rw [decode]
  constructor
  · intro ends
    by_contra more
    rw [if_neg more] at ends
    split at ends <;> cases ends
  · exact fun none_ => if_pos none_

/-- A row is an object that comes next, or `null`. -/
theorem decode_row {text rest : Line} {fields : List (Line × Tree)}
    (decoded : decode text = .row fields rest) :
    nextObject maxNestingDepth text = some (fields, rest) ∨ fields = [] := by
  rw [decode] at decoded
  split at decoded
  · cases decoded
  · split at decoded
    · next scanned =>
        cases decoded
        left
        rw [nextObject, scanned]
    · cases decoded
      exact .inr rfl
    · cases decoded

theorem decode_of_next {text rest : Line} {fields : List (Line × Tree)}
    (next : nextObject maxNestingDepth text = some (fields, rest)) :
    decode text = .row fields rest := by
  have scanned := nextObject_eq_some next
  have more : Json.skip text ≠ [] := by
    intro none_
    rw [none_] at scanned
    cases scanned
  rw [decode, if_neg more, scanned]

theorem nil_without_count (number : Nat) : ¬ Says [] number := by
  intro said
  rcases said with ⟨value, raw, ⟨key, _, held, _⟩, _⟩
  cases held

/-- The objects of a stream each say a number, and these add up. -/
def Sums (text : Line) (numbers : List Nat) : Prop :=
  ∃ rows, Objects maxNestingDepth text rows ∧ List.Forall₂ Says rows numbers

theorem sums_of_countFrom {steps rows : Nat} {text : Line} {total sum : Int}
    (counted : countFrom steps text total rows = (sum, none)) (small : total ≤ maxInt64) :
    ∃ numbers, Sums text numbers ∧ sum = total + numbers.sum ∧ sum ≤ maxInt64 ∧
      (rows ≠ 0 ∨ numbers ≠ []) := by
  induction steps generalizing text total rows with
  | zero => cases counted
  | succ steps induction =>
      rw [countFrom] at counted
      split at counted
      · next ends =>
          have space := (decode_eof_iff text).mp ends
          split at counted
          · cases counted
          · next some_ =>
              cases counted
              have alone : Sums text [] := ⟨[], ⟨[], text, rfl, List.dropWhile_eq_nil_iff.mp space,
                .nil⟩, .nil⟩
              exact ⟨[], alone, by simp, small, .inl some_⟩
      · cases counted
      · next fields rest decoded =>
          split at counted
          · cases counted
          · next total' added =>
              rcases addRow_ok added with ⟨number, said, same, inside⟩
              rcases induction counted inside with ⟨numbers, sums, total_, bound, _⟩
              rcases sums with ⟨rows', objects, each⟩
              rcases decode_row decoded with next_ | none_
              · rcases nextObject_piece next_ with ⟨piece, whole, _, reads⟩
                rcases objects with ⟨pieces, space, parts, spaces, parsed⟩
                have objects : Objects maxNestingDepth text (fields :: rows') :=
                  ⟨piece :: pieces, space,
                    by rw [whole, parts, List.flatten_cons, List.append_assoc],
                    spaces, .cons reads parsed⟩
                refine ⟨number :: numbers, ⟨fields :: rows', objects, .cons said each⟩, ?_, bound,
                  .inr (by simp)⟩
                rw [total_, same, List.sum_cons]
                push_cast
                omega
              · rw [none_] at said
                exact absurd said (nil_without_count number)

theorem countFrom_of_sums {pieces : List Line} {rows : List (List (Line × Tree))}
    {numbers : List Nat} {space : Line} (spaces : ∀ char ∈ space, Json.isSpace char = true)
    (parsed : List.Forall₂ (fun piece fields => parseWithin maxNestingDepth piece =
      some (.dict fields)) pieces rows)
    (each : List.Forall₂ Says rows numbers) {steps seen : Nat} (enough : pieces.length < steps)
    {total : Int} (positive : 0 ≤ total) (small : total + numbers.sum ≤ maxInt64)
    (some_ : seen ≠ 0 ∨ numbers ≠ []) {gap : Line}
    (blank : ∀ char ∈ gap, Json.isSpace char = true) :
    countFrom steps (gap ++ (pieces.flatten ++ space)) total seen =
      (total + numbers.sum, none) := by
  induction parsed generalizing numbers steps seen total gap with
  | nil =>
      cases each
      rcases steps with _ | steps
      · exact absurd enough (Nat.not_lt_zero _)
      have ends : decode (gap ++ (([] : List Line).flatten ++ space)) = .eof := by
        rw [decode_eof_iff, Json.skip_append blank]
        exact List.dropWhile_eq_nil_iff.mpr spaces
      rw [countFrom, ends]
      simp only
      rw [if_neg (some_.resolve_right (by simp))]
      simp
  | @cons piece fields pieces rows reads rest induction =>
      cases each with
      | @cons _ number _ numbers said each =>
          rcases steps with _ | steps
          · exact absurd enough (Nat.not_lt_zero _)
          rw [List.sum_cons, Int.natCast_add] at small
          rcases nextObject_of_piece reads with ⟨_, left, blank', next_⟩
          have decoded := decode_of_next (next_ gap (pieces.flatten ++ space) blank)
          have added := addRow_of_count said positive (by omega)
          have later := induction each (by simpa using enough) (by omega)
            (by omega : total + number + numbers.sum ≤ maxInt64) (.inl (Nat.succ_ne_zero seen))
            blank'
          rw [List.flatten_cons, List.append_assoc, countFrom, decoded]
          simp only [added]
          rw [later, List.sum_cons]
          push_cast
          rw [add_assoc]

theorem pieces_length {pieces : List Line} {rows : List (List (Line × Tree))}
    (parsed : List.Forall₂ (fun piece fields => parseWithin maxNestingDepth piece =
      some (.dict fields)) pieces rows) : pieces.length ≤ pieces.flatten.length := by
  induction parsed with
  | nil => exact le_refl _
  | @cons piece fields pieces rows reads rest induction =>
      have positive := List.length_pos_iff.mpr (nextObject_of_piece reads).1
      rw [List.flatten_cons, List.length_append, List.length_cons]
      omega

theorem countFrom_failed {steps rows : Nat} {text : Line} {total : Int} {failure : Failure}
    (failed : (countFrom steps text total rows).2 = some failure) :
    (countFrom steps text total rows).1 = 0 := by
  induction steps generalizing text total rows with
  | zero => rfl
  | succ steps induction =>
      rw [countFrom] at failed ⊢
      split
      · next ends =>
          rw [ends] at failed
          simp only at failed
          split at failed
          · rw [if_pos ‹_›]
          · cases failed
      · rfl
      · next fields rest decoded =>
          rw [decoded] at failed
          simp only at failed ⊢
          split
          · rfl
          · next total' added =>
              rw [added] at failed
              exact induction failed

/-- A count is the exact sum over a stream of one or more objects that each say a number, and
of any other stream there is none, but an error and a zero. -/
theorem count_exact (bytes : Line) :
    (∀ sum, count bytes = (sum, none) ↔ ∃ numbers, Sums (runes bytes) numbers ∧ numbers ≠ [] ∧
      sum = (numbers.sum : Int) ∧ (numbers.sum : Int) ≤ maxInt64) ∧
    ∀ failure, (count bytes).2 = some failure → (count bytes).1 = 0 := by
  refine ⟨fun sum => ⟨?_, ?_⟩, fun failure failed => countFrom_failed failed⟩
  · intro counted
    rcases sums_of_countFrom counted (by decide) with ⟨numbers, sums, same, bound, some_⟩
    rw [zero_add] at same
    exact ⟨numbers, sums, some_.resolve_left (by simp), same, same ▸ bound⟩
  · intro stream
    rcases stream with ⟨numbers, sums, some_, same, bound⟩
    rcases sums with ⟨rows, objects, each⟩
    rcases objects with ⟨pieces, space, whole, spaces, parsed⟩
    have short := pieces_length parsed
    have enough : pieces.length < (runes bytes).length + 1 := by
      rw [whole, List.length_append]
      omega
    have counted : countFrom ((runes bytes).length + 1) ([] ++ (pieces.flatten ++ space)) 0 0 =
        (0 + (numbers.sum : Int), none) :=
      countFrom_of_sums spaces parsed each enough (le_refl 0) (by rw [zero_add]; exact bound)
        (.inr some_) (by simp)
    rw [List.nil_append, ← whole, zero_add, ← same] at counted
    exact counted

/-! ## A row that nests too deep

The decoder gives up on values that are too deep in one another, even where the count is not.
-/

/-- Lists in one another, `more` of them in the outermost. -/
def nested : (more : Nat) → Line
  | 0 => ['[', ']']
  | more + 1 => '[' :: (nested more ++ [']'])

def nestedTree : (more : Nat) → Tree
  | 0 => .list []
  | more + 1 => .list [nestedTree more]

theorem nested_visible (more : Nat) : ∃ rest, nested more = '[' :: rest := by
  cases more with
  | zero => exact ⟨_, rfl⟩
  | succ more => exact ⟨_, rfl⟩

theorem skip_nested (more : Nat) (rest : Line) :
    Json.skip (nested more ++ rest) = nested more ++ rest := by
  rcases nested_visible more with ⟨others, same⟩
  rw [same, List.cons_append, Json.skip_visible '[' (by decide)]

theorem scanValue_nested (steps depth more : Nat) (rest : Line) :
    scanValue (steps + 1) (depth + 1) (nested (more + 1) ++ rest) =
      (scanItems steps depth (nested more ++ ']' :: rest)).map
        fun (items, rest) => (.list items, rest) := by
  have shape : nested (more + 1) ++ rest = '[' :: (nested more ++ ']' :: rest) := by
    simp [nested]
  rw [shape, scanValue.eq_def]
  simp only [skip_nested]
  rcases nested_visible more with ⟨others, same⟩
  rw [same, List.cons_append]
  split
  · next equal => exact absurd (List.cons.inj equal).1 (by decide)
  · rfl

theorem reads_nested (more depth : Nat) :
    Reads (more + 1 + depth) (nested more) (nestedTree more) where
  visible := by
    rcases nested_visible more with ⟨rest, same⟩
    exact ⟨'[', rest, same, by decide⟩
  scan steps rest long ends := by
    induction more generalizing steps rest with
    | zero =>
        rcases steps with _ | steps
        · exact absurd long (Nat.not_lt_zero _)
        have one : 0 + 1 + depth = depth + 1 := by omega
        rw [one]
        rfl
    | succ more induction =>
        have size : (nested (more + 1)).length = (nested more).length + 2 := by simp [nested]
        rcases steps with _ | _ | steps
        · omega
        · omega
        have deeper : more + 1 + 1 + depth = more + 1 + depth + 1 := by omega
        rw [deeper, scanValue_nested, scanItems, induction steps (']' :: rest) (by omega)
          (Json.ends_of_mark rest (by decide))]
        simp only [bind, Option.bind_some, Json.skip_visible ']' (by decide)]
        rfl

/-- Lists that are too deep in one another are not read at all. -/
theorem scanValue_too_deep {more depth : Nat} (deep : depth ≤ more) (steps : Nat) (rest : Line) :
    scanValue steps depth (nested more ++ rest) = none := by
  induction more generalizing depth steps rest with
  | zero =>
      have none_ : depth = 0 := by omega
      subst none_
      cases steps <;> rfl
  | succ more induction =>
      cases depth with
      | zero => cases steps <;> rfl
      | succ depth =>
          rcases steps with _ | steps
          · rfl
          · have items : scanItems steps depth (nested more ++ ']' :: rest) = none := by
              cases steps with
              | zero => rfl
              | succ steps =>
                  rw [scanItems, induction (by omega) steps (']' :: rest)]
                  rfl
            rw [scanValue_nested, items]
            rfl

/-- A row with a count of one, after lists that are `more` deep in one another. -/
def deepRow (more : Nat) : Line := object [("x", nested more), ("cnt", decimal 1)]

theorem reads_deepRow (more : Nat) :
    Reads (more + 2) (deepRow more)
      (.dict [(['x'], nestedTree more), (['c', 'n', 't'], .number (wholeNumeral 1))]) := by
  have each : ∀ field ∈ [("x", nested more, nestedTree more),
      ("cnt", decimal 1, .number (wholeNumeral 1))], (∀ char ∈ field.1.toList, Json.Plain char) ∧
        Reads (more + 1) field.2.1 field.2.2 := by
    intro field listed
    simp only [List.mem_cons, List.not_mem_nil, or_false] at listed
    rcases listed with rfl | rfl
    · exact ⟨(by decide : ∀ char ∈ "x".toList, Json.Plain char), reads_nested more 0⟩
    · exact ⟨(by decide : ∀ char ∈ "cnt".toList, Json.Plain char), reads_decimal _ 1⟩
  have names : "x".toList = ['x'] ∧ "cnt".toList = ['c', 'n', 't'] := by decide
  have reads := reads_object (by simp) each
  simp only [List.map_cons, List.map_nil, names.1, names.2] at reads
  exact reads

theorem deepRow_eq (more : Nat) : deepRow more =
    '\x7b' :: '"' :: 'x' :: '"' :: ':' :: (nested more ++ ',' :: (fieldText ("cnt", decimal 1) ++
      ['\x7d'])) := by
  simp [deepRow, object, fieldsText, fieldText]

theorem scanValue_deepRow {more depth : Nat} (deep : depth ≤ more) (steps : Nat) :
    scanValue steps (depth + 1) (deepRow more) = none := by
  rw [deepRow_eq]
  generalize ',' :: (fieldText ("cnt", decimal 1) ++ ['\x7d']) = rest
  rcases steps with _ | steps
  · rfl
  have fields : scanFields steps depth ('"' :: 'x' :: '"' :: ':' :: (nested more ++ rest)) =
      none := by
    rcases steps with _ | steps
    · rfl
    have name : Json.scanString none ('x' :: '"' :: ':' :: (nested more ++ rest)) =
        some (['x'], ':' :: (nested more ++ rest)) := rfl
    rw [scanFields]
    simp only [name, bind, Option.bind_some, Json.skip_visible ':' (by decide), skip_nested,
      scanValue_too_deep deep, Option.bind_none]
  rw [scanValue.eq_def]
  simp only [Json.skip_visible '"' (by decide)]
  split
  · next equal => exact absurd (List.cons.inj equal).1 (by decide)
  · rw [fields]
    rfl

theorem decode_deepRow {more : Nat} (deep : maxNestingDepth ≤ more + 1) :
    decode (deepRow more) = .failed := by
  have fails : ∀ steps, scanValue steps maxNestingDepth (deepRow more) = none := by
    intro steps
    obtain ⟨depth, same⟩ : ∃ depth, maxNestingDepth = depth + 1 := ⟨9999, rfl⟩
    rw [same]
    exact scanValue_deepRow (by omega) steps
  have visible : Json.skip (deepRow more) ≠ [] := by
    rw [deepRow_eq, Json.skip_visible '\x7b' (by decide)]
    simp
  have skipped : Json.skip (deepRow more) = deepRow more := by
    rw [deepRow_eq, Json.skip_visible '\x7b' (by decide)]
  rw [decode, if_neg visible, skipped, fails]

theorem nested_ascii (more : Nat) : Utf8.Ascii (nested more) := by
  induction more with
  | zero => exact (by decide : Utf8.Ascii ['[', ']'])
  | succ more induction =>
      exact (by decide : Utf8.Ascii ['[']).append (induction.append (by decide))

theorem runes_deepRow (more : Nat) : runes (deepRow more) = deepRow more := by
  apply runes_ascii
  apply object_ascii
  intro field listed
  simp only [List.mem_cons, List.not_mem_nil, or_false] at listed
  rcases listed with rfl | rfl
  · exact ⟨(by decide : Utf8.Ascii "x".toList), nested_ascii more⟩
  · exact ⟨(by decide : Utf8.Ascii "cnt".toList), decimal_ascii 1⟩

theorem count_deepRow {more : Nat} (deep : maxNestingDepth ≤ more + 1) :
    count (deepRow more) = (0, some .invalid) := by
  rw [count, runes_deepRow, countFrom, decode_deepRow deep]

theorem parseWithin_of_reads {depth : Nat} {chars : Line} {tree : Tree}
    (reads : Reads depth chars tree) : parseWithin depth chars = some tree := by
  have skipped := reads.skip []
  rw [List.append_nil] at skipped
  have read := reads.scan (2 * chars.length + 1) [] (by omega) Json.ends_nil
  rw [List.append_nil] at read
  simp only [parseWithin, skipped, read, bind, Option.bind_some]
  rfl

theorem says_one (tree : Tree) :
    Says [(['x'], tree), (['c', 'n', 't'], .number (wholeNumeral 1))] 1 := by
  refine ⟨.number (wholeNumeral 1), decimal 1, ⟨"cnt", by decide, rfl, ?_⟩, rfl,
    ⟨[], decimal 1, rfl, by decide, by decide, by decide, .inl rfl⟩⟩
  intro other listed different
  simp only [countKeys, List.mem_cons, List.not_mem_nil, or_false] at listed
  rcases listed with rfl | rfl | rfl | rfl
  · rfl
  · rfl
  · exact absurd rfl different
  · rfl

/-- Objects that each say a number have no count when they nest too deep. -/
theorem deep_row_refused :
    ¬ ∀ bytes, (∃ sum, count bytes = (sum, none)) ↔
      ∃ numbers, (∃ depth rows, Objects depth (runes bytes) rows ∧
        List.Forall₂ Says rows numbers) ∧ numbers ≠ [] ∧ (numbers.sum : Int) ≤ maxInt64 := by
  intro exact_
  obtain ⟨more, deep⟩ : ∃ more, maxNestingDepth ≤ more + 1 := ⟨maxNestingDepth, Nat.le_succ _⟩
  have piece := parseWithin_of_reads (reads_deepRow more)
  have objects : Objects (more + 2) (runes (deepRow more))
      [[(['x'], nestedTree more), (['c', 'n', 't'], .number (wholeNumeral 1))]] :=
    ⟨[deepRow more], [], by rw [runes_deepRow]; simp, by simp, .cons piece .nil⟩
  obtain ⟨sum, counted⟩ := (exact_ (deepRow more)).mpr
    ⟨[1], ⟨more + 2, _, objects, .cons (says_one _) .nil⟩, by simp, by decide⟩
  rw [count_deepRow deep] at counted
  cases counted

end Homelab.LogStats
