import Homelab.Foundation.JsonRoundTrip

/-! # The text format of Prometheus

What a scraper reads in a text: headers and samples, one to a line. Values are whole numbers
here, and samples have no time.
-/

namespace Homelab.Exposition

open Text

inductive Kind
  | counter
  | gauge
  | histogram
  | summary
  | untyped
deriving DecidableEq

structure Sample where
  metric : Line
  labels : List (Line × Line)
  value : Int
deriving DecidableEq

inductive Entry
  | help (metric text : Line)
  | type (metric : Line) (kind : Kind)
  | sample (sample : Sample)
deriving DecidableEq

/-! ## Reading -/

def isBlank (char : Char) : Bool := char = ' ' || char = '\t'

def skip (chars : Line) : Line := chars.dropWhile isBlank

def isLabelChar (char : Char) : Bool := char.isAlpha || char.isDigit || char = '_'

def isNameChar (char : Char) : Bool := isLabelChar char || char = ':'

def scanName (own : Char → Bool) (chars : Line) : Option (Line × Line) :=
  match chars.span own with
  | ([], _) => none
  | (first :: more, rest) => if first.isDigit then none else some (first :: more, rest)

/-- What a backslash and the character stand for in a label value. -/
def escaped : Char → Option Char
  | '\\' => some '\\'
  | '"' => some '"'
  | 'n' => some '\n'
  | _ => none

/-- A label value after its opening quote, and what follows the closing one. -/
def scanLabelValue : Line → Option (Line × Line)
  | [] => none
  | '"' :: rest => some ([], rest)
  | '\\' :: char :: rest => do
      let char ← escaped char
      let (value, rest) ← scanLabelValue rest
      return (char :: value, rest)
  | char :: rest => do
      let (value, rest) ← scanLabelValue rest
      return (char :: value, rest)

/-- The labels up to the closing brace. `steps` bounds the work and never runs out. -/
def scanLabels (steps : Nat) (chars : Line) : Option (List (Line × Line) × Line) :=
  match steps with
  | 0 => none
  | steps + 1 =>
      match skip chars with
      | '\x7d' :: rest => some ([], rest)
      | chars => do
          let (name, rest) ← scanName isLabelChar chars
          match skip rest with
          | '=' :: rest =>
              match skip rest with
              | '"' :: rest => do
                  let (value, rest) ← scanLabelValue rest
                  match skip rest with
                  | ',' :: rest => do
                      let (labels, rest) ← scanLabels steps rest
                      return ((name, value) :: labels, rest)
                  | '\x7d' :: rest => return ([(name, value)], rest)
                  | _ => none
              | _ => none
          | _ => none

def readNat (digits : Line) : Option Nat :=
  if digits ≠ [] ∧ ∀ char ∈ digits, char.isDigit = true then some (Json.natOf digits) else none

def readValue : Line → Option Int
  | '-' :: digits => (readNat digits).map fun value => -(value : Int)
  | digits => (readNat digits).map Int.ofNat

def scanLabelSet (chars : Line) : Option (List (Line × Line) × Line) :=
  match skip chars with
  | '\x7b' :: rest => scanLabels (rest.length + 1) rest
  | rest => some ([], rest)

def readSample (chars : Line) : Option Entry := do
  let (metric, rest) ← scanName isNameChar chars
  let (labels, rest) ← scanLabelSet rest
  let value ← readValue (skip rest)
  return .sample ⟨metric, labels, value⟩

def readKind (chars : Line) : Option Kind :=
  if chars = "counter".toList then some .counter
  else if chars = "gauge".toList then some .gauge
  else if chars = "histogram".toList then some .histogram
  else if chars = "summary".toList then some .summary
  else if chars = "untyped".toList then some .untyped
  else none

def readHelp : Line → Option Line
  | [] => some []
  | '\\' :: '\\' :: rest => (readHelp rest).map ('\\' :: ·)
  | '\\' :: 'n' :: rest => (readHelp rest).map ('\n' :: ·)
  | '\\' :: _ => none
  | char :: rest => (readHelp rest).map (char :: ·)

def readComment (chars : Line) : Option (Option Entry) :=
  match (skip chars).span fun char => !isBlank char with
  | (['H', 'E', 'L', 'P'], rest) => do
      let (metric, rest) ← scanName isNameChar (skip rest)
      let text ← readHelp (skip rest)
      return some (.help metric text)
  | (['T', 'Y', 'P', 'E'], rest) => do
      let (metric, rest) ← scanName isNameChar (skip rest)
      let kind ← readKind (skip rest)
      return some (.type metric kind)
  | _ => some none

def readLine (line : Line) : Option (Option Entry) :=
  match skip line with
  | [] => some none
  | '#' :: rest => readComment rest
  | chars => (readSample chars).map some

def readLines : List Line → Option (List Entry)
  | [] => none
  | [last] => if last = [] then some [] else none
  | line :: rest => do
      let entry ← readLine line
      let entries ← readLines rest
      return entry.toList ++ entries

/-- The headers and samples of a text, none if a line is wrong. -/
def parse (text : Line) : Option (List Entry) := readLines (splitChars '\n' text)

/-! ## Writing -/

def escape (char : Char) : Line :=
  if char = '\\' then ['\\', '\\']
  else if char = '\n' then ['\\', 'n']
  else if char = '"' then ['\\', '"']
  else [char]

def Kind.text : Kind → Line
  | .counter => "counter".toList
  | .gauge => "gauge".toList
  | .histogram => "histogram".toList
  | .summary => "summary".toList
  | .untyped => "untyped".toList

def pairText (label : Line × Line) : Line :=
  label.1 ++ '=' :: '"' :: (label.2.flatMap escape ++ ['"'])

def pairsText : List (Line × Line) → Line
  | [] => ['\x7d']
  | [label] => pairText label ++ ['\x7d']
  | label :: rest => pairText label ++ ',' :: pairsText rest

def labelText (labels : List (Line × Line)) : Line :=
  if labels = [] then [] else '\x7b' :: pairsText labels

def Entry.text : Entry → Line
  | .help metric text => "# HELP ".toList ++ metric ++ ' ' :: text
  | .type metric kind => "# TYPE ".toList ++ metric ++ ' ' :: kind.text
  | .sample own => own.metric ++ labelText own.labels ++ ' ' :: (toString own.value).toList

def print (entries : List Entry) : Line := entries.flatMap fun entry => entry.text ++ ['\n']

/-! ## What is written is read -/

def Named (own : Char → Bool) (name : Line) : Prop :=
  name ≠ [] ∧ (∀ char ∈ name, own char = true) ∧ ∀ first ∈ name.head?, first.isDigit = false

instance (own : Char → Bool) (name : Line) : Decidable (Named own name) :=
  inferInstanceAs (Decidable (_ ∧ _ ∧ _))

def Clear (text : Line) : Prop :=
  (∀ char ∈ text, char ≠ '\\' ∧ char ≠ '\n') ∧ ∀ first ∈ text.head?, isBlank first = false

instance (text : Line) : Decidable (Clear text) := inferInstanceAs (Decidable (_ ∧ _))

def Entry.Plain : Entry → Prop
  | .help metric text => Named isNameChar metric ∧ Clear text
  | .type metric _ => Named isNameChar metric
  | .sample own =>
      Named isNameChar own.metric ∧ ∀ label ∈ own.labels, Named isLabelChar label.1

theorem span_of_end {own : Char → Bool} {name : Line} (all : ∀ char ∈ name, own char = true)
    {mark : Char} (other : own mark = false) (rest : Line) :
    (name ++ mark :: rest).span own = (name, mark :: rest) := by
  rw [List.span_eq_takeWhile_dropWhile, List.takeWhile_append_of_pos all,
    List.dropWhile_append_of_pos all]
  simp [other]

theorem scanName_named {own : Char → Bool} {name : Line} (named : Named own name) {mark : Char}
    (other : own mark = false) (rest : Line) :
    scanName own (name ++ mark :: rest) = some (name, mark :: rest) := by
  rcases named with ⟨visible, all, head⟩
  rw [scanName, span_of_end all other]
  cases name with
  | nil => exact absurd rfl visible
  | cons first more => simp [head first rfl]

theorem skip_visible (first : Char) (visible : isBlank first = false) (rest : Line) :
    skip (first :: rest) = first :: rest := by
  simp [skip, visible]

/-- Names begin with no blank. -/
theorem Named.skip {own : Char → Bool} {name : Line} (named : Named own name)
    (blank : ∀ char, own char = true → isBlank char = false) (rest : Line) :
    skip (name ++ rest) = name ++ rest := by
  rcases named with ⟨visible, all, _⟩
  cases name with
  | nil => exact absurd rfl visible
  | cons first more => exact skip_visible first (blank first (all first List.mem_cons_self)) _

theorem isBlank_of_isNameChar {char : Char} (own : isNameChar char = true) :
    isBlank char = false := by
  rw [isBlank, Bool.or_eq_false_iff, decide_eq_false_iff_not, decide_eq_false_iff_not]
  constructor <;> rintro rfl <;> exact absurd own (by decide)

theorem isNameChar_of_isLabelChar {char : Char} (own : isLabelChar char = true) :
    isNameChar char = true := by
  rw [isNameChar, own, Bool.true_or]

theorem isBlank_of_isLabelChar {char : Char} (own : isLabelChar char = true) :
    isBlank char = false :=
  isBlank_of_isNameChar (isNameChar_of_isLabelChar own)

theorem scanLabelValue_escape (char : Char) (rest : Line) :
    scanLabelValue (escape char ++ rest) =
      (scanLabelValue rest).map fun (value, rest) => (char :: value, rest) := by
  rw [escape]
  split
  · next same =>
      subst same
      cases read : scanLabelValue rest <;> simp [scanLabelValue, escaped, read]
  split
  · next same =>
      subst same
      cases read : scanLabelValue rest <;> simp [scanLabelValue, escaped, read]
  split
  · next same =>
      subst same
      cases read : scanLabelValue rest <;> simp [scanLabelValue, escaped, read]
  · next slash _ quote =>
      rw [List.singleton_append, scanLabelValue]
      · cases read : scanLabelValue rest <;> simp
      · exact quote
      · exact fun _ _ equal => absurd equal slash

/-- Any text is read back. -/
theorem scanLabelValue_escaped (value rest : Line) :
    scanLabelValue (value.flatMap escape ++ '"' :: rest) = some (value, rest) := by
  induction value with
  | nil => rfl
  | cons char more induction =>
      rw [List.flatMap_cons, List.append_assoc, scanLabelValue_escape, induction]
      rfl

theorem Named.first {own : Char → Bool} {name : Line} (named : Named own name) :
    ∃ first more, name = first :: more ∧ own first = true := by
  rcases named with ⟨visible, all, _⟩
  cases name with
  | nil => exact absurd rfl visible
  | cons first more => exact ⟨first, more, rfl, all first List.mem_cons_self⟩

theorem scanLabels_pair {steps : Nat} {label : Line × Line} (named : Named isLabelChar label.1)
    (mark : Char) (visible : isBlank mark = false) (rest : Line) :
    scanLabels (steps + 1) (pairText label ++ mark :: rest) =
      match mark :: rest with
      | ',' :: rest => do
          let (labels, rest) ← scanLabels steps rest
          return (label :: labels, rest)
      | '\x7d' :: rest => some ([label], rest)
      | _ => none := by
  rcases label with ⟨name, value⟩
  have start := named.skip (fun _ => isBlank_of_isLabelChar)
  have read : ∀ rest, scanName isLabelChar (name ++ '=' :: rest) = some (name, '=' :: rest) :=
    scanName_named named (by decide)
  have quoted := scanLabelValue_escaped value
  rcases named.first with ⟨first, more, spelled, own⟩
  simp only at spelled
  subst spelled
  have other : first ≠ '\x7d' := by
    rintro rfl
    exact absurd own (by decide)
  simp only [pairText, List.append_assoc, List.cons_append, List.nil_append] at start read ⊢
  rw [scanLabels.eq_def]
  simp only [start]
  split
  · next equal => exact absurd (List.cons.inj equal).1 other
  · simp only [read, bind, Option.bind, skip_visible '=' (by decide), skip_visible '"' (by decide),
      quoted, skip_visible mark visible]
    rfl

theorem scanLabels_pairs {labels : List (Line × Line)} (some_ : labels ≠ [])
    (named : ∀ label ∈ labels, Named isLabelChar label.1) {steps : Nat}
    (long : labels.length ≤ steps) (rest : Line) :
    scanLabels steps (pairsText labels ++ rest) = some (labels, rest) := by
  induction labels generalizing steps with
  | nil => exact absurd rfl some_
  | cons label others induction =>
      have here := named label List.mem_cons_self
      rcases steps with _ | steps
      · exact absurd long (Nat.not_succ_le_zero _)
      rw [List.length_cons] at long
      cases others with
      | nil =>
          rw [pairsText, List.append_assoc, List.singleton_append,
            scanLabels_pair here '\x7d' (by decide)]
          rfl
      | cons second more =>
          have later : scanLabels steps (pairsText (second :: more) ++ rest) =
              some (second :: more, rest) :=
            induction (by simp) (fun own member => named own (List.mem_cons_of_mem _ member))
              (by omega)
          rw [pairsText, List.append_assoc, List.cons_append, scanLabels_pair here ',' (by decide)]
          · simp only [later]
            rfl
          · simp

theorem length_pairsText (labels : List (Line × Line)) :
    labels.length ≤ (pairsText labels).length := by
  induction labels with
  | nil => exact Nat.zero_le _
  | cons label others induction =>
      cases others with
      | nil => simp [pairsText]
      | cons second more =>
          rw [pairsText, List.length_append, List.length_cons]
          · simp only [List.length_cons] at induction ⊢
            omega
          · simp

theorem readNat_toDigits (value : Nat) : readNat (Nat.toDigits 10 value) = some value := by
  rcases Json.toDigits_cons value with ⟨first, more, digits, _⟩
  rw [readNat, if_pos ⟨by simp [digits], fun char => Json.toDigits_isDigit value⟩,
    Json.natOf_toDigits]

theorem readValue_toString (value : Int) : readValue (toString value).toList = some value := by
  cases value with
  | ofNat value =>
      rcases Json.toDigits_cons value with ⟨first, more, digits, digit⟩
      have unsigned : first ≠ '-' := Json.ne_of_isDigit digit (by decide)
      have read := readNat_toDigits value
      rw [show (toString (Int.ofNat value)).toList = Nat.toDigits 10 value from
        Json.toList_toString value]
      rw [digits] at read ⊢
      rw [readValue, read]
      · rfl
      · exact fun _ equal => unsigned (List.cons.inj equal).1
  | negSucc value =>
      rw [Json.toList_toString_negSucc, readValue, readNat_toDigits]
      rfl

/-- A number begins with no blank, and with no brace. -/
theorem toString_first (value : Int) : ∃ first more, (toString value).toList = first :: more ∧
    isBlank first = false ∧ first ≠ '\x7b' := by
  cases value with
  | ofNat value =>
      rcases Json.toDigits_cons value with ⟨first, more, digits, digit⟩
      have other : ∀ char : Char, char.isDigit = false → first ≠ char :=
        fun char => Json.ne_of_isDigit digit
      refine ⟨first, more, (Json.toList_toString value).trans digits, ?_, other _ (by decide)⟩
      simp [isBlank, other]
  | negSucc value =>
      exact ⟨'-', _, Json.toList_toString_negSucc value, by decide, by decide⟩

theorem skip_space (rest : Line) : skip (' ' :: rest) = skip rest := rfl

theorem skip_number (value : Int) : skip (toString value).toList = (toString value).toList := by
  rcases toString_first value with ⟨first, more, spelled, visible, _⟩
  rw [spelled, skip_visible first visible]

theorem Entry.text_sample (own : Sample) : (Entry.sample own).text =
    own.metric ++ labelText own.labels ++ ' ' :: (toString own.value).toList := rfl

/-- Labels are read up to the value. -/
theorem scanLabelSet_text {labels : List (Line × Line)}
    (named : ∀ label ∈ labels, Named isLabelChar label.1) (value : Int) :
    ∃ gap, scanLabelSet (labelText labels ++ ' ' :: (toString value).toList) =
      some (labels, gap) ∧ skip gap = (toString value).toList := by
  cases labels with
  | nil =>
      rcases toString_first value with ⟨first, more, spelled, visible, other⟩
      have none : scanLabelSet (first :: more) = some ([], first :: more) := by
        rw [scanLabelSet, skip_visible first visible]
        split
        · next equal => exact absurd (List.cons.inj equal).1 other
        · rfl
      refine ⟨first :: more, ?_, ?_⟩
      · rw [labelText, if_pos rfl, List.nil_append, scanLabelSet, skip_space, ← scanLabelSet,
          spelled, none]
      · rw [skip_visible first visible, spelled]
  | cons label others =>
      refine ⟨' ' :: (toString value).toList, ?_, (skip_space _).trans (skip_number value)⟩
      have long := length_pairsText (label :: others)
      rw [labelText, if_neg (by simp), List.cons_append, scanLabelSet,
        skip_visible '\x7b' (by decide)]
      exact scanLabels_pairs (by simp) named (by rw [List.length_append]; omega) _

theorem labelText_first (labels : List (Line × Line)) (rest : Line) :
    ∃ mark more, labelText labels ++ ' ' :: rest = mark :: more ∧ isNameChar mark = false := by
  cases labels with
  | nil => exact ⟨' ', rest, rfl, by decide⟩
  | cons label others => exact ⟨'\x7b', _, rfl, by decide⟩

theorem readSample_text {own : Sample} (plain : (Entry.sample own).Plain) :
    readSample (Entry.sample own).text = some (.sample own) := by
  rcases own with ⟨metric, labels, value⟩
  rcases plain with ⟨named, each⟩
  rcases scanLabelSet_text each value with ⟨gap, labelled, skipped⟩
  rcases labelText_first labels (toString value).toList with ⟨mark, more, spelled, other⟩
  rw [Entry.text_sample, List.append_assoc]
  simp only at labelled ⊢
  rw [spelled] at labelled ⊢
  simp only [readSample, bind, Option.bind, scanName_named named other, labelled, skipped,
    readValue_toString]
  rfl

theorem readHelp_clear {text : Line} (clear : ∀ char ∈ text, char ≠ '\\' ∧ char ≠ '\n') :
    readHelp text = some text := by
  induction text with
  | nil => rfl
  | cons char rest induction =>
      have here := clear char List.mem_cons_self
      rw [readHelp, induction fun own member => clear own (List.mem_cons_of_mem _ member)]
      · rfl
      all_goals
        intros
        simp_all

theorem readKind_text (kind : Kind) : readKind kind.text = some kind := by
  cases kind <;> decide

/-- The mark, the word and the metric of a header. -/
theorem readComment_help {metric text : Line} (named : Named isNameChar metric)
    (clear : Clear text) :
    readComment (" HELP ".toList ++ metric ++ ' ' :: text) = some (some (.help metric text)) := by
  have start := named.skip (fun _ => isBlank_of_isNameChar)
  have word : (skip (" HELP ".toList ++ metric ++ ' ' :: text)).span (fun char => !isBlank char) =
      (['H', 'E', 'L', 'P'], ' ' :: (metric ++ ' ' :: text)) := by
    simp only [String.reduceToList, List.cons_append, List.nil_append]
    rfl
  have rest : skip (' ' :: text) = text := by
    rw [skip_space]
    cases text with
    | nil => rfl
    | cons first more => exact skip_visible first (clear.2 first rfl) more
  rw [readComment, word]
  simp only [bind, Option.bind, skip_space, start, scanName_named named
    (show isNameChar ' ' = false by decide)]
  rw [skip_space] at rest
  simp only [rest, readHelp_clear clear.1]
  rfl

theorem readComment_type {metric : Line} (named : Named isNameChar metric) (kind : Kind) :
    readComment (" TYPE ".toList ++ metric ++ ' ' :: kind.text) =
      some (some (.type metric kind)) := by
  have start := named.skip (fun _ => isBlank_of_isNameChar)
  have word : (skip (" TYPE ".toList ++ metric ++ ' ' :: kind.text)).span
      (fun char => !isBlank char) =
        (['T', 'Y', 'P', 'E'], ' ' :: (metric ++ ' ' :: kind.text)) := by
    simp only [String.reduceToList, List.cons_append, List.nil_append]
    rfl
  have rest : skip kind.text = kind.text := by
    cases kind <;> rfl
  rw [readComment, word]
  simp only [bind, Option.bind, skip_space, start, rest, readKind_text, scanName_named named
    (show isNameChar ' ' = false by decide)]
  rfl

theorem readLine_hash (rest : Line) : readLine ('#' :: rest) = readComment rest := rfl

/-- A line that is written is read. -/
theorem readLine_text {entry : Entry} (plain : entry.Plain) :
    readLine entry.text = some (some entry) := by
  cases entry with
  | help metric text =>
      exact (readLine_hash _).trans (readComment_help plain.1 plain.2)
  | type metric kind =>
      exact (readLine_hash _).trans (readComment_type plain kind)
  | sample own =>
      have read := readSample_text plain
      rcases plain.1.first with ⟨first, more, spelled, name⟩
      have other : first ≠ '#' := by
        rintro rfl
        exact absurd name (by decide)
      rw [Entry.text_sample, spelled, List.append_assoc, List.cons_append] at read ⊢
      rw [readLine, skip_visible first (isBlank_of_isNameChar name)]
      split
      · next equal => cases equal
      · next equal => exact absurd (List.cons.inj equal).1 other
      · rw [read]
        rfl

/-! ## Lines -/

theorem newline_escaped (value : Line) : '\n' ∉ value.flatMap escape := by
  intro member
  rcases List.mem_flatMap.mp member with ⟨char, _, own⟩
  rw [escape] at own
  split at own
  · simp at own
  split at own
  · simp at own
  split at own
  · simp at own
  · next different _ =>
      exact different (List.mem_singleton.mp own).symm

theorem Named.newline {own : Char → Bool} {name : Line} (named : Named own name)
    (other : own '\n' = false) : '\n' ∉ name := by
  intro member
  rw [named.2.1 _ member] at other
  cases other

theorem newline_pairsText {labels : List (Line × Line)}
    (named : ∀ label ∈ labels, Named isLabelChar label.1) : '\n' ∉ pairsText labels := by
  have pair : ∀ label ∈ labels, '\n' ∉ pairText label := by
    intro label member
    have name := (named label member).newline (by decide)
    have value := newline_escaped label.2
    simp only [pairText, List.mem_append, List.mem_cons, List.not_mem_nil, or_false, name, value]
    decide
  clear named
  induction labels with
  | nil => decide
  | cons label others induction =>
      have here := pair label List.mem_cons_self
      have later := induction fun own member => pair own (List.mem_cons_of_mem _ member)
      cases others with
      | nil =>
          simp only [pairsText, List.mem_append, List.mem_cons, List.not_mem_nil, or_false, here]
          decide
      | cons second more =>
          rw [pairsText, List.mem_append, List.mem_cons]
          · simp only [here, later]
            decide
          · simp

theorem newline_toString (value : Int) : '\n' ∉ (toString value).toList := by
  have digits : ∀ number, '\n' ∉ Nat.toDigits 10 number := by
    intro number member
    exact absurd (Json.toDigits_isDigit number member) (by decide)
  cases value with
  | ofNat value =>
      rw [show (toString (Int.ofNat value)).toList = Nat.toDigits 10 value from
        Json.toList_toString value]
      exact digits value
  | negSucc value =>
      rw [Json.toList_toString_negSucc]
      intro member
      exact digits _ (List.mem_of_ne_of_mem (by decide) member)

theorem newline_text {entry : Entry} (plain : entry.Plain) : '\n' ∉ entry.text := by
  cases entry with
  | help metric text =>
      have name := plain.1.newline (by decide)
      have clear : '\n' ∉ text := fun member => (plain.2.1 _ member).2 rfl
      show '\n' ∉ "# HELP ".toList ++ metric ++ ' ' :: text
      simp [name, clear]
  | type metric kind =>
      have name := Named.newline plain (by decide)
      have word : '\n' ∉ kind.text := by
        cases kind <;> decide
      show '\n' ∉ "# TYPE ".toList ++ metric ++ ' ' :: kind.text
      simp [name, word]
  | sample own =>
      have name := plain.1.newline (by decide)
      have labels : '\n' ∉ labelText own.labels := by
        rw [labelText]
        split
        · exact List.not_mem_nil
        · simp [newline_pairsText plain.2]
      have value := newline_toString own.value
      rw [Entry.text_sample]
      simp only [List.mem_append, List.mem_cons, name, labels, value]
      decide

theorem splitChars_print {entries : List Entry} (plain : ∀ entry ∈ entries, entry.Plain) :
    splitChars '\n' (print entries) = entries.map Entry.text ++ [[]] := by
  induction entries with
  | nil => rfl
  | cons entry rest induction =>
      have later := induction fun own member => plain own (List.mem_cons_of_mem _ member)
      rw [print] at later ⊢
      rw [List.flatMap_cons, List.append_assoc, List.singleton_append,
        splitChars_append (newline_text (plain entry List.mem_cons_self)), later]
      rfl

/-- What is written is read back. -/
theorem parse_print {entries : List Entry} (plain : ∀ entry ∈ entries, entry.Plain) :
    parse (print entries) = some entries := by
  rw [parse, splitChars_print plain]
  induction entries with
  | nil => rfl
  | cons entry rest induction =>
      have later := induction fun own member => plain own (List.mem_cons_of_mem _ member)
      have more : ∃ line others, rest.map Entry.text ++ [[]] = line :: others := by
        cases rest with
        | nil => exact ⟨_, _, rfl⟩
        | cons second others => exact ⟨_, _, rfl⟩
      rcases more with ⟨line, others, spelled⟩
      rw [List.map_cons, List.cons_append]
      rw [spelled] at later ⊢
      simp only [readLines, bind, Option.bind, readLine_text (plain entry List.mem_cons_self),
        later]
      rfl

/-! ## Families -/

/-- A metric with its header, and its values by their labels. -/
structure Family where
  name : String
  help : String
  kind : Kind
  points : List (List (Line × Line) × Int)

def Family.samples (family : Family) : List Sample :=
  family.points.map fun point => ⟨family.name.toList, point.1, point.2⟩

def Family.entries (family : Family) : List Entry :=
  .help family.name.toList family.help.toList :: .type family.name.toList family.kind ::
    family.samples.map .sample

structure Family.Plain (family : Family) : Prop where
  name : Named isNameChar family.name.toList
  help : Clear family.help.toList
  labels : ∀ point ∈ family.points, ∀ label ∈ point.1, Named isLabelChar label.1

theorem Family.Plain.entries {family : Family} (plain : family.Plain) :
    ∀ entry ∈ family.entries, entry.Plain := by
  simp only [Family.entries, List.forall_mem_cons, Family.samples, List.map_map]
  refine ⟨⟨plain.name, plain.help⟩, plain.name, fun entry member => ?_⟩
  rcases List.mem_map.mp member with ⟨point, own, rfl⟩
  exact ⟨plain.name, plain.labels point own⟩

theorem parse_families {families : List Family} (plain : ∀ family ∈ families, family.Plain) :
    parse (print (families.flatMap Family.entries)) =
      some (families.flatMap Family.entries) := by
  apply parse_print
  intro entry member
  rcases List.mem_flatMap.mp member with ⟨family, own, inside⟩
  exact (plain family own).entries entry inside

/-- The samples of a metric are those of its family. -/
theorem mem_entries {families : List Family} (names : (families.map Family.name).Nodup)
    {family : Family} (member : family ∈ families) {sample : Sample}
    (named : sample.metric = family.name.toList) :
    .sample sample ∈ families.flatMap Family.entries ↔ sample ∈ family.samples := by
  constructor
  · intro own
    rcases List.mem_flatMap.mp own with ⟨other, otherMember, inside⟩
    simp only [Family.entries, List.mem_cons, reduceCtorEq, false_or] at inside
    rcases List.mem_map.mp inside with ⟨found, foundMember, same⟩
    rw [Entry.sample.inj same] at foundMember
    have name : sample.metric = other.name.toList := by
      rcases List.mem_map.mp foundMember with ⟨point, _, rfl⟩
      rfl
    have equal : other.name = family.name := String.toList_inj.mp (name.symm.trans named)
    rwa [List.inj_on_of_nodup_map names otherMember member equal] at foundMember
  · intro own
    refine List.mem_flatMap.mpr ⟨family, member, ?_⟩
    simp only [Family.entries, List.mem_cons, reduceCtorEq, false_or]
    exact List.mem_map.mpr ⟨sample, own, rfl⟩

theorem print_both (first rest : List Entry) : print (first ++ rest) = print first ++ print rest :=
  List.flatMap_append

theorem print_flat {α : Type} (items : List α) (entries : α → List Entry) :
    print (items.flatMap entries) = items.flatMap fun item => print (entries item) :=
  List.flatMap_assoc

/-- Lines one after another, however they are put together. -/
theorem three_lines (help name text type kind value : Line) :
    help ++ name ++ ' ' :: text ++ '\n' :: type ++ name ++ ' ' :: kind ++ '\n' :: name ++
        ' ' :: value ++ ['\n'] =
      (help ++ name ++ ' ' :: text ++ ['\n']) ++ ((type ++ name ++ ' ' :: kind ++ ['\n']) ++
        ((name ++ [] ++ ' ' :: value ++ ['\n']) ++ [])) := by
  simp only [List.append_assoc, List.cons_append, List.nil_append, List.append_nil]

/-- What tells a sample from the others. -/
def Sample.series (sample : Sample) : Line × List (Line × Line) := (sample.metric, sample.labels)

/-- Different metrics with different labels each are different series. -/
theorem nodup_series {families : List Family} (names : (families.map Family.name).Nodup)
    (each : ∀ family ∈ families, (family.points.map Prod.fst).Nodup) :
    ((families.flatMap Family.samples).map Sample.series).Nodup := by
  induction families with
  | nil => exact List.nodup_nil
  | cons family rest induction =>
      rw [List.map_cons, List.nodup_cons] at names
      have later := induction names.2 fun own member => each own (List.mem_cons_of_mem _ member)
      have own : (family.samples.map Sample.series).Nodup := by
        have labels := each family List.mem_cons_self
        have paired : family.samples.map Sample.series =
            (family.points.map Prod.fst).map fun labels => (family.name.toList, labels) := by
          simp [Family.samples, Sample.series]
        rw [paired]
        exact labels.map fun _ _ equal => (Prod.mk.inj equal).2
      rw [List.flatMap_cons, List.map_append, List.nodup_append]
      refine ⟨own, later, fun series left other right equal => ?_⟩
      subst equal
      rcases List.mem_map.mp left with ⟨sample, first, rfl⟩
      rcases List.mem_map.mp first with ⟨point, _, rfl⟩
      rcases List.mem_map.mp right with ⟨sample', second, same⟩
      rcases List.mem_flatMap.mp second with ⟨family', member, inside⟩
      rcases List.mem_map.mp inside with ⟨point', _, rfl⟩
      have name : family'.name.toList = family.name.toList := (Prod.mk.inj same).1
      have name : family'.name = family.name := String.toList_inj.mp name
      exact names.1 (List.mem_map.mpr ⟨family', member, name⟩)

/-- A name that is spelled out. -/
theorem named_literal {own : Char → Bool} {text : String} {chars : Line}
    (same : text = .ofList chars) (named : Named own chars) : Named own text.toList := by
  rwa [toList_literal text same]

theorem clear_literal {text : String} {chars : Line} (same : text = .ofList chars)
    (clear : Clear chars) : Clear text.toList := by
  rwa [toList_literal text same]

end Homelab.Exposition
