import Homelab.Foundation.JsonRoundTrip
import Homelab.Foundation.Utf8

/-! # Text that is put between quotes as it is

Whether the quotes then hold all of it: the text may end early, go on past the closing quote,
or be none.
-/

namespace Homelab.Json

open Python

/-- No character ends the text, and none of it is left open; `escaped` says that a backslash
comes right before. -/
def Inside (escaped : Bool) : List Char → Prop
  | [] => escaped = false
  | char :: rest =>
      32 ≤ char.toNat ∧ (escaped = false → char ≠ '"') ∧
        Inside (!escaped && char = '\\') rest

/-- What a text between quotes comes to, whatever follows the closing quote. -/
inductive Scans (pending : Option Nat) (raw : List Char) : Prop
  | wrong : (∀ tail, scanString pending (raw ++ '"' :: tail) = none) → Scans pending raw
  | whole (text : List Char) : Inside false raw →
      (∀ tail, scanString pending (raw ++ '"' :: tail) = some (text, tail)) → Scans pending raw
  | early (text more : List Char) : '"' ∈ raw →
      (∀ tail, scanString pending (raw ++ '"' :: tail) = some (text, more ++ '"' :: tail)) →
      Scans pending raw
  | late (front : List Char) :
      (∀ tail, scanString pending (raw ++ '"' :: tail) =
        (scanString none tail).map fun (text, rest) => (front ++ text, rest)) →
      Scans pending raw

theorem Scans.after {pending next : Option Nat} {raw more : List Char}
    (scans : Scans next more) (front : List Char) (part : more ⊆ raw)
    (inside : Inside false more → Inside false raw)
    (reads : ∀ tail, scanString pending (raw ++ '"' :: tail) =
      (scanString next (more ++ '"' :: tail)).map fun (text, rest) => (front ++ text, rest)) :
    Scans pending raw := by
  cases scans with
  | wrong none =>
      apply Scans.wrong
      intro tail
      rw [reads, none]
      rfl
  | whole text sealed_ scan =>
      refine Scans.whole (front ++ text) (inside sealed_) fun tail => ?_
      rw [reads, scan]
      rfl
  | early text later quote scan =>
      refine Scans.early (front ++ text) later (part quote) fun tail => ?_
      rw [reads, scan]
      rfl
  | late own scan =>
      refine Scans.late (front ++ own) fun tail => ?_
      rw [reads, scan, Option.map_map]
      congr 1
      funext found
      simp

theorem hexCode_quote {digits : List Char} (quote : '"' ∈ digits) : hexCode digits = none := by
  have stops : ∀ code, digits.foldlM
      (fun code char => (hexDigit char).map (code * 16 + ·)) code = none := by
    intro code
    induction digits generalizing code with
    | nil => cases quote
    | cons char rest induction =>
        rw [List.foldlM_cons]
        rcases List.mem_cons.mp quote with rfl | later
        · rfl
        · cases found : (hexDigit char).map (code * 16 + ·) with
          | none => rfl
          | some next => exact induction later next
  exact stops 0

theorem hexCode_visible {digits : List Char} {code : Nat} (found : hexCode digits = some code) :
    ∀ char ∈ digits, 32 ≤ char.toNat ∧ char ≠ '"' ∧ char ≠ '\\' := by
  have each : ∀ start, digits.foldlM
      (fun code char => (hexDigit char).map (code * 16 + ·)) start = some code →
      ∀ char ∈ digits, ∃ digit, hexDigit char = some digit := by
    clear found
    intro start found
    induction digits generalizing start with
    | nil => simp
    | cons own rest induction =>
        rw [List.foldlM_cons] at found
        rcases Option.bind_eq_some_iff.mp found with ⟨next, here, later⟩
        rcases Option.map_eq_some_iff.mp here with ⟨digit, equal, _⟩
        intro char member
        rcases List.mem_cons.mp member with rfl | member
        · exact ⟨digit, equal⟩
        · exact induction next later char member
  intro char member
  rcases each 0 found char member with ⟨digit, equal⟩
  rw [hexDigit] at equal
  refine ⟨?_, ?_, ?_⟩
  · have lower : ∀ bound : Char, bound ≤ char → bound.toNat ≤ char.toNat := fun _ le => le
    split at equal
    · next isDigit =>
        simp only [Char.isDigit, Bool.and_eq_true, decide_eq_true_iff] at isDigit
        have := lower '0' isDigit.1
        exact Nat.le_trans (by decide) this
    split at equal
    · next letter => exact Nat.le_trans (by decide) (lower 'a' letter.1)
    split at equal
    · next letter => exact Nat.le_trans (by decide) (lower 'A' letter.1)
    · cases equal
  · rintro rfl
    cases equal
  · rintro rfl
    cases equal

/-- Four digits that run into the closing quote are none. -/
theorem scanString_cut (rest : List Char) (quote : '"' ∈ rest.take 4) (pending : Option Nat) :
    scanString pending ('\\' :: 'u' :: rest) = none := by
  rw [scanString.eq_def]
  split
  · next impossible => cases impossible
  · next equal => exact absurd (List.cons.inj equal).1 (by decide)
  · next a b c d more equal =>
      have same := (List.cons.inj (List.cons.inj equal).2).2
      subst same
      rw [hexCode_quote (by simpa using quote)]
      rfl
  · next char more _ equal =>
      rw [← (List.cons.inj (List.cons.inj equal).2).1]
      rfl
  · next different equal =>
      rcases List.cons.inj equal with ⟨rfl, rfl⟩
      exact (different _ _ rfl rfl).elim

theorem inside_unicode {digits more : List Char} {code : Nat}
    (found : hexCode digits = some code) (inside : Inside false more) :
    Inside false ('\\' :: 'u' :: (digits ++ more)) := by
  have visible := hexCode_visible found
  have rest : Inside false (digits ++ more) := by
    clear found
    induction digits with
    | nil => exact inside
    | cons char later induction =>
        have here := visible char List.mem_cons_self
        refine ⟨here.1, fun _ => here.2.1, ?_⟩
        simp only [Bool.not_false, Bool.true_and, here.2.2, decide_false]
        exact induction fun other member => visible other (List.mem_cons_of_mem _ member)
  exact ⟨by decide, by decide, by decide, by decide, rest⟩

theorem scanString_escape_mark {mark : Char} (other : mark ≠ 'u') (pending : Option Nat)
    (rest : List Char) :
    scanString pending ('\\' :: mark :: rest) =
      (escaped mark).bind fun char =>
        (scanString none rest).map fun (text, rest) => (lone pending ++ char :: text, rest) := by
  rw [scanString.eq_def]
  split
  · next impossible => cases impossible
  · next equal => exact absurd (List.cons.inj equal).1 (by decide)
  · next equal => exact absurd (List.cons.inj (List.cons.inj equal).2).1 other
  · next char more _ equal =>
      rcases List.cons.inj (List.cons.inj equal).2 with ⟨rfl, rfl⟩
      rfl
  · next different equal =>
      rcases List.cons.inj equal with ⟨rfl, rfl⟩
      exact (different _ _ rfl rfl).elim

theorem scanString_visible {char : Char} (quote : char ≠ '"') (backslash : char ≠ '\\')
    (pending : Option Nat) (rest : List Char) :
    scanString pending (char :: rest) =
      if char.toNat < 32 then none
      else (scanString none rest).map fun (text, rest) => (lone pending ++ char :: text, rest) := by
  rw [scanString.eq_def]
  split
  · next impossible => cases impossible
  · next equal => exact absurd (List.cons.inj equal).1 quote
  · next equal => exact absurd (List.cons.inj equal).1 backslash
  · next equal => exact absurd (List.cons.inj equal).1 backslash
  · next equal =>
      rcases List.cons.inj equal with ⟨rfl, rfl⟩
      rfl

theorem escaped_visible {mark char : Char} (found : escaped mark = some char) :
    32 ≤ mark.toNat := by
  rw [escaped.eq_def] at found
  split at found <;> first | decide | cases found

/-- What four digits of an escape add. -/
theorem scans_unicode {digits more : List Char} {code : Nat} (four : digits.length = 4)
    (found : hexCode digits = some code) (pending : Option Nat)
    (later : ∀ next, Scans next more) :
    Scans pending ('\\' :: 'u' :: (digits ++ more)) := by
  have inside : Inside false more → Inside false ('\\' :: 'u' :: (digits ++ more)) :=
    inside_unicode found
  have part : more ⊆ '\\' :: 'u' :: (digits ++ more) := fun char member => by simp [member]
  rcases digits with _ | ⟨a, _ | ⟨b, _ | ⟨c, _ | ⟨d, _ | ⟨e, rest⟩⟩⟩⟩⟩ <;> try cases four
  cases pending with
  | none =>
      cases high : highHalf code with
      | true =>
          refine (later (some code)).after (lone none) part inside fun tail => ?_
          simp only [List.cons_append, List.nil_append, scanString, found]
          simp [high]
      | false =>
          refine (later none).after (lone none ++ [whole code]) part inside fun tail => ?_
          simp only [List.cons_append, List.nil_append, scanString, found]
          simp [high]
  | some first =>
      cases low : lowHalf code with
      | true =>
          refine (later none).after ([joined first code]) part inside fun tail => ?_
          simp only [List.cons_append, List.nil_append, scanString, found]
          simp [low]
      | false =>
          cases high : highHalf code with
          | true =>
              refine (later (some code)).after (lone (some first)) part inside fun tail => ?_
              simp only [List.cons_append, List.nil_append, scanString, found]
              simp [low, high]
          | false =>
              refine (later none).after (lone (some first) ++ [whole code]) part inside
                fun tail => ?_
              simp only [List.cons_append, List.nil_append, scanString, found]
              simp [low, high]

/-- Every text between quotes is one of these. -/
theorem scans (pending : Option Nat) (raw : List Char) : Scans pending raw := by
  induction size : raw.length using Nat.strong_induction_on generalizing raw pending with
  | _ size induction =>
  have later : ∀ (more : List Char), more.length < raw.length → ∀ next, Scans next more :=
    fun more short next => induction _ (size ▸ short) next more rfl
  rcases raw with _ | ⟨char, rest⟩
  · exact .whole (lone pending) rfl fun tail => rfl
  by_cases quote : char = '"'
  · subst quote
    exact .early (lone pending) rest List.mem_cons_self fun tail => rfl
  by_cases backslash : char = '\\'
  · subst backslash
    rcases rest with _ | ⟨mark, more⟩
    · refine .late (lone pending ++ ['"']) fun tail => ?_
      rw [List.singleton_append, scanString_escape_mark (by decide)]
      simp [escaped]
    by_cases unicode : mark = 'u'
    · subst unicode
      by_cases long : 4 ≤ more.length
      · cases found : hexCode (more.take 4) with
        | none =>
            refine .wrong fun tail => ?_
            rcases more with _ | ⟨a, _ | ⟨b, _ | ⟨c, _ | ⟨d, rest⟩⟩⟩⟩
            · cases long
            · simp at long
            · simp at long
            · simp at long
            · simp only [List.cons_append, scanString]
              rw [show hexCode [a, b, c, d] = none from found]
              rfl
        | some code =>
            have scans := scans_unicode (by simp [long]) found pending (later (more.drop 4)
              (by simp; omega))
            rwa [List.take_append_drop] at scans
      · refine .wrong fun tail => ?_
        refine scanString_cut (more ++ '"' :: tail) ?_ pending
        rw [List.take_append, List.mem_append]
        right
        cases short : 4 - more.length with
        | zero => omega
        | succ left => exact List.mem_cons_self
    · cases found : escaped mark with
      | none =>
          refine .wrong fun tail => ?_
          rw [List.cons_append, List.cons_append, scanString_escape_mark unicode, found]
          rfl
      | some own =>
          refine (later more (by simp only [List.length_cons]; omega) none).after
            (lone pending ++ [own]) ?_ ?_ ?_
          · intro char member
            simp [member]
          · intro inside
            exact ⟨by decide, by decide, escaped_visible found, by simp, inside⟩
          · intro tail
            rw [List.cons_append, List.cons_append, scanString_escape_mark unicode, found]
            simp
  · by_cases visible : char.toNat < 32
    · refine .wrong fun tail => ?_
      rw [List.cons_append, scanString_visible quote backslash, if_pos visible]
    · refine (later rest (by simp) none).after (lone pending ++ [char]) ?_ ?_ ?_
      · intro other member
        simp [member]
      · intro inside
        refine ⟨by omega, fun _ => quote, ?_⟩
        simpa [backslash] using inside
      · intro tail
        rw [List.cons_append, scanString_visible quote backslash, if_neg visible]
        simp

/-! ## Quotes that hold the text -/

/-- The quotes hold all of the text. -/
def quotable (raw : List Char) : Bool :=
  match scanString none (raw ++ ['"']) with
  | some (_, []) => true
  | _ => false

/-- The text ends its own quotes and goes on as an object may after a value. -/
def escapes (raw : List Char) : Bool :=
  match scanString none (raw ++ ['"']) with
  | some (_, rest) =>
      match skip rest with
      | ',' :: _ => true
      | '\x7d' :: _ => true
      | _ => false
  | none => false

theorem quotes_of_quotable {raw : List Char} (quotable : quotable raw = true) :
    ∃ text, Quotes raw text ∧ Inside false raw := by
  rw [Json.quotable] at quotable
  cases scans none raw with
  | wrong none =>
      rw [none] at quotable
      cases quotable
  | whole text inside scan => exact ⟨text, scan, inside⟩
  | early text more quote scan =>
      rw [scan] at quotable
      cases more <;> cases quotable
  | late front scan =>
      rw [scan] at quotable
      cases quotable

def unquoted (raw : List Char) : List Char :=
  match scanString none (raw ++ ['"']) with
  | some (text, _) => text
  | none => []

theorem quotes_unquoted {raw : List Char} (quotable : quotable raw = true) :
    Quotes raw (unquoted raw) := by
  rcases quotes_of_quotable quotable with ⟨text, quotes, _⟩
  have read := quotes []
  rw [unquoted, read]
  exact quotes

theorem Inside.visible {escaped : Bool} {raw : List Char} (inside : Inside escaped raw) :
    ∀ char ∈ raw, 32 ≤ char.toNat := by
  induction raw generalizing escaped with
  | nil => simp
  | cons own rest induction =>
      intro char member
      rcases List.mem_cons.mp member with same | member
      · rw [same]
        exact inside.1
      · exact induction inside.2.2 char member

/-! ## Bytes between quotes -/

theorem ofNat_ne_backslash {code : Nat} (large : 128 ≤ code) : Char.ofNat code ≠ '\\' := by
  intro same
  by_cases valid : code.isValidChar
  · have number := congrArg Char.toNat same
    rw [Char.ofNat, dif_pos valid] at number
    have small : code = 92 := number
    omega
  · rw [Char.ofNat, dif_neg valid] at same
    exact absurd same (by decide)

theorem inside_wide {byte : Char} (wide : 128 ≤ byte.toNat) {rest : List Char}
    (later : Inside false rest) (escaped : Bool) : Inside escaped (byte :: rest) := by
  have other : ∀ char : Char, char.toNat < 128 → byte ≠ char := by
    intro char small same
    rw [same] at wide
    omega
  refine ⟨by omega, fun _ => other _ (by decide), ?_⟩
  simp only [other '\\' (by decide), decide_false, Bool.and_false]
  exact later

/-- Bytes stay between their quotes where the text they are does. -/
theorem inside_of_run (raw : List Char) :
    (∀ escaped text, Utf8.run none raw = some (none, text) → Inside escaped text →
      Inside escaped raw) ∧
    ∀ (pending : Utf8.Pending) (escaped : Bool) (text : List Char), pending.Wide →
      Utf8.run (some pending) raw = some (none, text) → Inside escaped text →
        Inside false raw := by
  induction raw with
  | nil =>
      constructor
      · intro escaped text read inside
        cases read
        exact inside
      · intro pending escaped text wide read
        cases read
  | cons byte rest induction =>
      constructor
      · intro escaped text read inside
        rw [Utf8.run, Utf8.step] at read
        by_cases small : byte.toNat < 128
        · rw [if_pos small] at read
          rcases Option.map_eq_some_iff.mp read with ⟨⟨last, done⟩, ran, same⟩
          cases same
          exact ⟨inside.1, inside.2.1, induction.1 _ _ ran inside.2.2⟩
        · rw [if_neg small] at read
          cases found : Utf8.lead byte.toNat with
          | none =>
              rw [found] at read
              cases read
          | some pending =>
              rw [found] at read
              rcases Option.map_eq_some_iff.mp read with ⟨⟨last, done⟩, ran, same⟩
              cases same
              exact inside_wide (by omega)
                (induction.2 pending escaped _ (Utf8.lead_wide found) ran inside) escaped
      · intro pending escaped text wide read inside
        rw [Utf8.run, Utf8.step] at read
        by_cases bounded : pending.low ≤ byte.toNat ∧ byte.toNat ≤ pending.high
        · have low := wide.low
          rw [if_pos bounded] at read
          cases left : pending.left with
          | zero =>
              rw [left] at read
              rcases Option.map_eq_some_iff.mp read with ⟨⟨last, done⟩, ran, same⟩
              cases same
              have code := wide.last left
              have next := inside.2.2
              rw [decide_eq_false (ofNat_ne_backslash (by omega)), Bool.and_false] at next
              exact inside_wide (by omega) (induction.1 _ _ ran next) false
          | succ left' =>
              have stepped : Utf8.step (some pending) byte = some (some ⟨left',
                  pending.code * 64 + (byte.toNat - 128), 0x80, 0xBF⟩, []) := by
                rw [Utf8.step, if_pos bounded]
                simp only [left]
              have later := Utf8.step_wide (fun own member => Option.mem_some.mp member ▸ wide)
                stepped _ rfl
              rw [left] at read
              rcases Option.map_eq_some_iff.mp read with ⟨⟨last, done⟩, ran, same⟩
              cases same
              exact inside_wide (by omega) (induction.2 _ escaped _ later ran inside) false
        · rw [if_neg bounded] at read
          cases read

theorem inside_of_decode {raw text : List Char} (decoded : Utf8.decode raw = some text)
    (inside : Inside false text) : Inside false raw :=
  (inside_of_run raw).1 false text (Utf8.decode_eq_some.mp decoded) inside

/-- So do they where line ends are read as Python reads them. -/
theorem inside_of_opened {raw text : List Char} (opened : Utf8.opened raw = some text)
    (inside : Inside false text) : Inside false raw := by
  rcases Option.map_eq_some_iff.mp opened with ⟨own, decoded, same⟩
  have single : '\r' ∉ own := by
    intro member
    have newline := Utf8.mem_universal member false
    rw [same] at newline
    exact absurd (inside.visible _ newline) (by decide)
  rw [Utf8.universal_self single] at same
  exact inside_of_decode (same ▸ decoded) inside

/-- Nothing that an object may go on with comes after the text. -/
def Spoilt (scan : Option (List Char × List Char)) : Prop :=
  ∀ text rest, scan = some (text, rest) →
    ∀ mark more, skip rest = mark :: more → mark ≠ ',' ∧ mark ≠ '\x7d'

/-- What comes first does not depend on what follows a visible character. -/
theorem skip_before (front : List Char) {mark : Char} (visible : isSpace mark = false) :
    ∃ first rest, ∀ tail, skip (front ++ mark :: tail) = first :: (rest ++ tail) := by
  induction front with
  | nil => exact ⟨mark, [], fun tail => skip_visible mark visible tail⟩
  | cons char more induction =>
      by_cases space : isSpace char = true
      · rcases induction with ⟨first, rest, same⟩
        refine ⟨first, rest, fun tail => ?_⟩
        have gap : ∀ own ∈ [char], isSpace own = true := by simpa using space
        rw [List.cons_append, ← List.singleton_append, skip_append gap, same]
      · refine ⟨char, more ++ [mark], fun tail => ?_⟩
        rw [List.cons_append, skip_visible char (by simpa using space)]
        simp

theorem spoilt {raw tail : List Char} (wrong : quotable raw = false)
    (stays : escapes raw = false) (next : Spoilt (scanString none tail)) :
    Spoilt (scanString none (raw ++ '"' :: tail)) := by
  rw [quotable] at wrong
  rw [escapes] at stays
  cases scans none raw with
  | wrong none =>
      rw [none]
      intro text rest impossible
      cases impossible
  | whole text inside scan =>
      rw [scan] at wrong
      cases wrong
  | early text more quote scan =>
      rw [scan] at stays ⊢
      intro own rest equal mark other skipped
      cases equal
      rcases skip_before more (show isSpace '"' = false from rfl) with ⟨first, rest, same⟩
      rw [same] at skipped
      rcases List.cons.inj skipped with ⟨rfl, _⟩
      simp only [same] at stays
      constructor
      · rintro rfl
        cases stays
      · rintro rfl
        cases stays
  | late front scan =>
      rw [scan]
      intro text rest equal
      rcases Option.map_eq_some_iff.mp equal with ⟨found, scanned, same⟩
      cases same
      exact next found.1 found.2 scanned

/-! ## Objects that cannot be read -/

def Broken (depth : Nat) (chars : List Char) : Prop :=
  ∀ steps, chars.length < steps → ∃ raised, scanValue steps depth chars = .error raised

def Stuck (depth : Nat) (chars : List Char) : Prop :=
  ∀ steps into, chars.length < steps → ∃ raised, scanFields steps depth into chars = .error raised

theorem Stuck.broken {depth : Nat} {gap text : List Char} (stuck : Stuck depth ('"' :: text))
    (spaces : ∀ char ∈ gap, isSpace char = true) :
    Broken (depth + 1) ('\x7b' :: gap ++ '"' :: text) := by
  intro steps long
  rcases steps with _ | steps
  · exact absurd long (Nat.not_lt_zero _)
  rcases stuck steps [] (by simp at long ⊢; omega) with ⟨raised, failed⟩
  refine ⟨raised, ?_⟩
  rw [List.cons_append, scanValue.eq_def]
  simp only
  rw [skip_append spaces, skip_visible '"' (by decide)]
  exact congrArg (Except.map fun pair => (Value.dict pair.1, pair.2)) failed

theorem Broken.loads {depth : Nat} {chars : List Char} (broken : Broken depth chars)
    (visible : skip chars = chars) : ∃ raised, loads depth (.ofList chars) = .error raised := by
  rcases broken (2 * chars.length + 1) (by omega) with ⟨raised, failed⟩
  refine ⟨raised, ?_⟩
  rw [Json.loads, String.toList_ofList, visible, failed]
  rfl

/-- A field whose value cannot be read. -/
theorem Broken.stuck {depth : Nat} {raw name gap chars : List Char}
    (broken : Broken depth chars) (quotes : Quotes raw name)
    (spaces : ∀ char ∈ gap, isSpace char = true) (visible : skip chars = chars) :
    Stuck depth ('"' :: (raw ++ '"' :: ':' :: (gap ++ chars))) := by
  intro steps into long
  rcases steps with _ | steps
  · exact absurd long (Nat.not_lt_zero _)
  rcases broken steps (by simp at long; omega) with ⟨raised, failed⟩
  refine ⟨raised, ?_⟩
  rw [scanFields]
  simp only [bind, Except.bind, quotes.quoted, skip_visible ':' (by decide),
    skip_append spaces, visible, failed]

/-- Fields that can be read before ones that cannot. -/
theorem Stuck.more {depth : Nat} {raw name gap chars after text : List Char} {value : Value}
    (stuck : Stuck depth ('"' :: text)) (quotes : Quotes raw name)
    (gapSpaces : ∀ char ∈ gap, isSpace char = true) (reads : Reads depth chars value)
    (afterSpaces : ∀ char ∈ after, isSpace char = true) :
    Stuck depth
      ('"' :: (raw ++ '"' :: ':' :: (gap ++ (chars ++ ',' :: (after ++ '"' :: text))))) := by
  intro steps into long
  rcases steps with _ | steps
  · exact absurd long (Nat.not_lt_zero _)
  have long : chars.length < steps ∧ ('"' :: text).length < steps := by
    simp only [List.length_append, List.length_cons] at long ⊢
    omega
  rcases stuck steps (Table.put (.ofList name) value into) long.2 with ⟨raised, failed⟩
  refine ⟨raised, ?_⟩
  have step := scanFields_step [] ',' (after ++ '"' :: text) into quotes gapSpaces reads
    no_spaces long.1 (by decide) (by decide)
  rw [List.nil_append] at step
  rw [step]
  simp only
  rw [skip_append afterSpaces, skip_visible '"' (by decide), failed]

/-- A text after which nothing can go on. -/
theorem Spoilt.stuck {depth : Nat} {raw name text : List Char}
    (spoilt : Spoilt (scanString none text)) (quotes : Quotes raw name) :
    Stuck depth ('"' :: (raw ++ '"' :: ':' :: '"' :: text)) := by
  intro steps into long
  rcases steps with _ | _ | steps
  · exact absurd long (Nat.not_lt_zero _)
  · simp at long
  rw [scanFields]
  simp only [bind, Except.bind, quotes.quoted, skip_visible ':' (by decide),
    skip_visible '"' (by decide), scanValue]
  cases scanned : scanString none text with
  | none => exact ⟨.valueError, by simp [quoted, scanned, Except.map]⟩
  | some found =>
      rcases found with ⟨own, rest⟩
      have other := spoilt own rest scanned
      simp only [quoted, scanned, Except.map]
      split
      · next equal => exact absurd rfl (other _ _ equal).1
      · next equal => exact absurd rfl (other _ _ equal).2
      · exact ⟨_, rfl⟩

end Homelab.Json
