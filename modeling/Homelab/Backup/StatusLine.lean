import Homelab.Backup.StateFile

/-! # What the shell reads in a status line

Where the error text stays between its quotes, the glob and `sed` find what the recipe put in.
-/

namespace Homelab.Backup

open Text

/-! ## Lines -/

/-- A line that `$(…)` keeps as it is. -/
def Kept (line : Line) : Prop := .ofNat 0 ∉ line ∧ '\n' ∉ line

instance (line : Line) : Decidable (Kept line) := inferInstanceAs (Decidable (_ ∧ _))

theorem Kept.append {first second : Line} (left : Kept first) (right : Kept second) :
    Kept (first ++ second) := by
  simp only [Kept, List.mem_append, not_or]
  exact ⟨⟨left.1, right.1⟩, left.2, right.2⟩

theorem captured_kept {line : Line} (kept : Kept line) : captured line = line := by
  have filtered : line.filter (· ≠ Char.ofNat 0) = line := by
    rw [List.filter_eq_self]
    intro char member
    simp only [ne_eq, decide_eq_true_eq]
    rintro rfl
    exact kept.1 member
  have trimmed : line.reverse.dropWhile (· = '\n') = line.reverse := by
    cases reversed : line.reverse with
    | nil => rfl
    | cons last front =>
        have other : last ≠ '\n' := by
          rintro rfl
          exact kept.2 (List.mem_reverse.mp (by rw [reversed]; exact List.mem_cons_self))
        rw [List.dropWhile_cons_of_neg (by simpa using other)]
  rw [captured, filtered, trimmed, List.reverse_reverse]

theorem captured_newline {line : Line} (kept : Kept line) :
    captured (line ++ ['\n']) = line := by
  have same : captured (line ++ ['\n']) = captured line := by
    simp [captured, List.filter_append]
  rw [same, captured_kept kept]

theorem decimal_natCast (value : Nat) : decimal (value : Int) = Nat.toDigits 10 value :=
  Json.toList_toString value

theorem mem_decimal {value : Int} {char : Char} (member : char ∈ decimal value) :
    char = '-' ∨ char.isDigit = true := by
  cases value with
  | ofNat value =>
      right
      rw [Int.ofNat_eq_natCast, decimal_natCast] at member
      exact Json.toDigits_isDigit value member
  | negSucc value =>
      rw [decimal, Json.toList_toString_negSucc] at member
      rcases List.mem_cons.mp member with minus | member
      · exact .inl minus
      · exact .inr (Json.toDigits_isDigit _ member)

theorem not_mem_decimal (value : Int) {char : Char} (minus : char ≠ '-')
    (digit : char.isDigit = false) : char ∉ decimal value := by
  intro member
  rcases mem_decimal member with same | isDigit
  · exact minus same
  · rw [digit] at isDigit
    cases isDigit

theorem kept_decimal (value : Int) : Kept (decimal value) :=
  ⟨not_mem_decimal value (by decide) (by decide), not_mem_decimal value (by decide) (by decide)⟩

/-! ## Pieces of a status line -/

/-- What comes between the word `service` and the word `status`. -/
def middle (name : Line) (method : Method) : List Line :=
  [":".toList, name, ",".toList, "method".toList, ":".toList, method.name.toList, ",".toList]

/-- What comes after `"status":`. -/
def okRest (bytes durationMs : Int) (entries : Line) : Line :=
  pieces ["ok".toList, ",".toList, "bytes".toList, ':' :: decimal bytes ++ [','],
    "duration_ms".toList] ('"' :: (':' :: decimal durationMs ++ entries))

def failRest (durationMs : Int) (error : Line) : Line :=
  pieces ["fail".toList, ",".toList, "bytes".toList, ":0,".toList, "duration_ms".toList,
    ':' :: decimal durationMs ++ [','], "error".toList, ":".toList]
    ('"' :: (error ++ ['"', '\x7d']))

def entriesRest : Option Int → Line
  | none => ['\x7d']
  | some entries => ',' :: pieces ["entries".toList] ('"' :: (':' :: decimal entries ++ ['\x7d']))

def Ending.rest : Ending → Line
  | .ok bytes durationMs entries => okRest bytes durationMs (entriesRest entries)
  | .fail durationMs error => failRest durationMs error

def Report.text (report : Report) : Line :=
  '\x7b' :: pieces ("service".toList :: (middle report.service report.method ++
    ["status".toList, ":".toList])) report.ending.rest

theorem Ending.fields_fail (durationMs : Int) (error : Line) :
    (Ending.fail durationMs error).fields =
      "\"status\":\"fail\",\"bytes\":0,\"duration_ms\":".toList ++ decimal durationMs ++
        ",\"error\":\"".toList ++ error ++ ['"'] := rfl

theorem Ending.fields_ok (bytes durationMs : Int) :
    (Ending.ok bytes durationMs none).fields =
      "\"status\":\"ok\",\"bytes\":".toList ++ decimal bytes ++
        ",\"duration_ms\":".toList ++ decimal durationMs ++ [] := rfl

theorem Ending.fields_entries (bytes durationMs entries : Int) :
    (Ending.ok bytes durationMs (some entries)).fields =
      "\"status\":\"ok\",\"bytes\":".toList ++ decimal bytes ++
        ",\"duration_ms\":".toList ++ decimal durationMs ++
          (",\"entries\":".toList ++ decimal entries) := rfl

theorem Report.line_eq (report : Report) : report.line = report.text ++ ['\n'] := by
  rcases report with ⟨service, method, ending⟩
  unfold Report.line
  cases ending with
  | ok bytes durationMs entries =>
      cases entries with
      | none =>
          rw [Ending.fields_ok]
          simp only [Report.text, Ending.rest, okRest, entriesRest, pieces, middle,
            String.reduceToList, List.foldr_cons, List.foldr_nil, List.cons_append,
            List.nil_append, List.append_assoc]
      | some entries =>
          rw [Ending.fields_entries]
          simp only [Report.text, Ending.rest, okRest, entriesRest, pieces, middle,
            String.reduceToList, List.foldr_cons, List.foldr_nil, List.cons_append,
            List.nil_append, List.append_assoc]
  | fail durationMs error =>
      rw [Ending.fields_fail]
      simp only [Report.text, Ending.rest, failRest, pieces, middle, String.reduceToList,
        List.foldr_cons, List.foldr_nil, List.cons_append, List.nil_append, List.append_assoc]

/-! ## What a run of a recipe leaves -/

def missingError (method : Method) : Line :=
  "recipe /usr/local/bin/backup-".toList ++ method.name.toList ++ ".sh missing".toList

def Service.ending (service : Service) : Option Ending :=
  match service.outcome with
  | .missing => some (.fail 0 (missingError service.method))
  | .died => none
  | .printed ending _ => some ending

theorem kept_missingError (method : Method) : Kept (missingError method) := by
  have text : Kept "recipe /usr/local/bin/backup-".toList := by decide
  cases method <;> exact (text.append (by decide)).append (by decide)

theorem Service.ending_printable {service : Service} {ending : Ending}
    (reported : service.ending = some ending) : ending.Printable := by
  rw [Service.ending] at reported
  split at reported
  · cases reported
    exact ⟨by decide, kept_missingError _⟩
  · cases reported
  · next printable _ =>
      cases reported
      exact printable

theorem Kept.cons {char : Char} {line : Line} (here : Kept [char]) (rest : Kept line) :
    Kept (char :: line) := here.append rest

theorem kept_pieces {parts : List Line} {rest : Line} (each : ∀ part ∈ parts, Kept part)
    (last : Kept rest) : Kept (pieces parts rest) := by
  induction parts with
  | nil => exact last
  | cons part others induction =>
      have later := induction fun own member => each own (List.mem_cons_of_mem _ member)
      exact Kept.cons (by decide) ((each part List.mem_cons_self).append later)

theorem kept_name (method : Method) : Kept method.name.toList := by
  cases method <;> decide

theorem kept_rest {ending : Ending} (printable : ending.Printable) : Kept ending.rest := by
  cases ending with
  | ok bytes durationMs entries =>
      have last : Kept (entriesRest entries) := by
        cases entries with
        | none => decide
        | some entries =>
            refine Kept.cons (by decide) (kept_pieces ?_ (Kept.cons (by decide)
              (Kept.cons (by decide) ((kept_decimal entries).append (by decide)))))
            intro part member
            rw [List.mem_singleton.mp member]
            decide
      refine kept_pieces ?_ (Kept.cons (by decide) ((Kept.cons (by decide)
        (kept_decimal durationMs)).append last))
      simp only [List.forall_mem_cons, List.not_mem_nil, false_implies, implies_true, and_true]
      exact ⟨by decide, by decide, by decide, (Kept.cons (by decide) (kept_decimal bytes)).append
        (by decide), by decide⟩
  | fail durationMs error =>
      refine kept_pieces ?_ (Kept.cons (by decide) (Kept.append printable.2 (by decide)))
      simp only [List.forall_mem_cons, List.not_mem_nil, false_implies, implies_true, and_true]
      exact ⟨by decide, by decide, by decide, by decide, by decide,
        (Kept.cons (by decide) (kept_decimal durationMs)).append (by decide), by decide, by decide⟩

theorem Report.kept (report : Report) (named : Kept report.service)
    (printable : report.ending.Printable) : Kept report.text := by
  refine Kept.cons (by decide) (kept_pieces ?_ (kept_rest printable))
  simp only [middle, List.cons_append, List.nil_append, List.forall_mem_cons, List.not_mem_nil,
    false_implies, implies_true, and_true]
  exact ⟨by decide, by decide, named, by decide, by decide, by decide, kept_name _, by decide,
    by decide, by decide⟩

theorem runService_missing (name : Line) (method : Method) :
    Service.runService ⟨name, method, .missing⟩ =
      "\x7b\"service\":\"".toList ++ name ++ "\",\"method\":\"".toList ++ method.name.toList ++
        "\",\"status\":\"fail\",\"bytes\":0,\"duration_ms\":0,\"error\":\"recipe ".toList ++
        "/usr/local/bin/backup-".toList ++ method.name.toList ++ ".sh missing\"\x7d".toList := rfl

theorem runService_missing_text (name : Line) (method : Method) :
    Service.runService ⟨name, method, .missing⟩ =
      Report.text ⟨name, method, .fail 0 (missingError method)⟩ := by
  have zero : decimal 0 = ['0'] := rfl
  refine (runService_missing name method).trans ?_
  unfold missingError
  simp only [zero, Report.text, Ending.rest, failRest, pieces, middle, String.reduceToList,
    List.foldr_cons, List.foldr_nil, List.cons_append, List.nil_append, List.append_assoc]

def Service.text (service : Service) : Option Ending → Line
  | none => []
  | some ending => Report.text ⟨service.name, service.method, ending⟩

theorem Service.result_eq {service : Service} (named : Kept service.name) :
    service.result = service.text service.ending := by
  have printable := @Service.ending_printable service
  rcases service with ⟨name, method, outcome⟩
  cases outcome with
  | missing =>
      have kept := Report.kept ⟨name, method, .fail 0 (missingError method)⟩ named
        (printable rfl)
      calc captured (Service.runService ⟨name, method, .missing⟩)
        _ = captured (Report.text ⟨name, method, .fail 0 (missingError method)⟩) :=
            congrArg captured (runService_missing_text name method)
        _ = _ := captured_kept kept
  | died => rfl
  | printed ending own =>
      have kept := Report.kept ⟨name, method, ending⟩ named own
      calc captured (Report.line ⟨name, method, ending⟩)
        _ = captured (Report.text ⟨name, method, ending⟩ ++ ['\n']) :=
            congrArg captured (Report.line_eq _)
        _ = _ := captured_newline kept

/-! ## What is found in a status line -/

/-- The last place of the groups and of the glob. -/
theorem service_keyed :
    Keyed ('"' :: ("service".toList ++ '"' :: ':' :: ['"'])) serviceGroup.here := by
  intro line other
  rw [Group.here, if_neg]
  rw [List.isPrefixOf_iff_prefix]
  exact other

theorem bytes_keyed : Keyed ('"' :: ("bytes".toList ++ '"' :: ':' :: [])) bytesGroup.here := by
  intro line other
  rw [Group.here, if_neg]
  rw [List.isPrefixOf_iff_prefix]
  exact other

theorem status_keyed : Keyed ('"' :: ("status".toList ++ '"' :: ':' :: "\"ok\"".toList))
    (starts "\"status\":\"ok\"") := starts_keyed "\"status\":\"ok\""

section

variable {α : Type} {word more : Line} {found : Line → Option α}
  (keyed : Keyed ('"' :: (word ++ '"' :: ':' :: more)) found)
  (wordFree : '"' ∉ word) (colonFree : ':' ∉ word) (commaFree : ',' ∉ word)

include keyed wordFree colonFree commaFree

theorem rightmost_middle {name : Line} (named : '"' ∉ name) (method : Method)
    (other : word ≠ "method".toList ∧ word ≠ method.name.toList) (rest : Line) :
    rightmost found (pieces (middle name method) ('"' :: rest)) =
      rightmost found ('"' :: rest) := by
  have colon : word ≠ ":".toList := by
    rintro rfl
    exact colonFree (by decide)
  have comma : word ≠ ",".toList := by
    rintro rfl
    exact commaFree (by decide)
  have first : rightmost found (pieces [":".toList] ('"' :: (name ++ pieces [",".toList,
      "method".toList, ":".toList, method.name.toList, ",".toList] ('"' :: rest)))) = _ :=
    rightmost_pieces keyed _ wordFree (by simpa using colon)
  have second : rightmost found ('"' :: (name ++ '"' :: (",".toList ++ pieces ["method".toList,
      ":".toList, method.name.toList, ",".toList] ('"' :: rest)))) = _ :=
    rightmost_piece keyed wordFree named (fun _ => by simp [List.cons_prefix_cons])
  have third : rightmost found (pieces [",".toList, "method".toList, ":".toList,
      method.name.toList, ",".toList] ('"' :: rest)) = _ :=
    rightmost_pieces keyed rest wordFree (by
      have quoteFree : '"' ∉ method.name.toList := by cases method <;> decide
      simp only [List.forall_mem_cons, List.not_mem_nil, false_implies, implies_true, and_true]
      exact ⟨⟨by decide, comma⟩, ⟨by decide, other.1⟩, ⟨by decide, colon⟩,
        ⟨quoteFree, other.2⟩, by decide, comma⟩)
  exact first.trans (second.trans third)

omit commaFree in
/-- A word of its own is not among the numbers after the size. -/
theorem rightmost_numbers (bytes durationMs : Int) (entries : Option Int)
    (other : word ∉ ["duration_ms".toList, "entries".toList]) :
    rightmost found ('"' :: ((':' :: decimal bytes ++ [',']) ++ '"' :: ("duration_ms".toList ++
      '"' :: (':' :: decimal durationMs ++ entriesRest entries)))) = none := by
  have number : ∀ value : Int, word ≠ ':' :: decimal value ++ [','] := by
    intro value same
    rw [same] at colonFree
    exact colonFree List.mem_cons_self
  have quoteFree : ∀ value : Int, '"' ∉ decimal value :=
    fun value => not_mem_decimal value (by decide) (by decide)
  simp only [List.mem_cons, List.not_mem_nil, or_false, not_or] at other
  rw [rightmost_piece keyed wordFree (by simp [quoteFree]) fun same => absurd same (number _),
    rightmost_piece keyed wordFree (by decide) fun same => absurd same other.1]
  cases entries with
  | none =>
      refine rightmost_closing keyed ?_
      simp [entriesRest, quoteFree]
  | some entries =>
      have spelled : ':' :: decimal durationMs ++ entriesRest (some entries) =
          (':' :: decimal durationMs ++ [',']) ++
            '"' :: ("entries".toList ++ '"' :: (':' :: decimal entries ++ ['\x7d'])) := by
        simp [entriesRest, pieces]
      rw [spelled,
        rightmost_piece keyed wordFree (by simp [quoteFree]) fun same => absurd same (number _),
        rightmost_piece keyed wordFree (by decide) fun same => absurd same other.2]
      refine rightmost_closing keyed ?_
      simp [quoteFree]

/-- A word of its own is not in a good ending. -/
theorem rightmost_okRest (bytes durationMs : Int) (entries : Option Int)
    (other : word ∉ ["ok".toList, "bytes".toList, "duration_ms".toList, "entries".toList]) :
    rightmost found (okRest bytes durationMs (entriesRest entries)) = none := by
  have comma : word ≠ ",".toList := by
    rintro rfl
    exact commaFree (by decide)
  simp only [List.mem_cons, List.not_mem_nil, or_false, not_or] at other
  have spelled : okRest bytes durationMs (entriesRest entries) =
      pieces ["ok".toList, ",".toList, "bytes".toList] ('"' :: ((':' :: decimal bytes ++ [',']) ++
        '"' :: ("duration_ms".toList ++ '"' ::
          (':' :: decimal durationMs ++ entriesRest entries)))) := rfl
  rw [spelled, rightmost_pieces keyed _ wordFree]
  · refine rightmost_numbers keyed wordFree colonFree bytes durationMs entries ?_
    simp only [List.mem_cons, List.not_mem_nil, or_false, not_or]
    exact other.2.2
  · simp only [List.forall_mem_cons, List.not_mem_nil, false_implies, implies_true, and_true]
    exact ⟨⟨by decide, other.1⟩, ⟨by decide, comma⟩, by decide, other.2.1⟩

/-- A word of its own is in the error of a failed ending, or nowhere. -/
theorem rightmost_failRest (durationMs : Int) (error : Line)
    (other : word ∉ ["fail".toList, "bytes".toList, "duration_ms".toList, "error".toList]) :
    rightmost found (failRest durationMs error) =
      rightmost found ('"' :: (error ++ ['"', '\x7d'])) := by
  have comma : word ≠ ",".toList := by
    rintro rfl
    exact commaFree (by decide)
  have colon : word ≠ ":".toList := by
    rintro rfl
    exact colonFree (by decide)
  have zero : word ≠ ":0,".toList := by
    rintro rfl
    exact colonFree (by decide)
  have number : word ≠ ':' :: decimal durationMs ++ [','] := by
    rintro rfl
    exact colonFree List.mem_cons_self
  have quoteFree : '"' ∉ decimal durationMs := not_mem_decimal _ (by decide) (by decide)
  simp only [List.mem_cons, List.not_mem_nil, or_false, not_or] at other
  refine rightmost_pieces keyed _ wordFree ?_
  simp only [List.forall_mem_cons, List.not_mem_nil, false_implies, implies_true, and_true]
  refine ⟨⟨by decide, other.1⟩, ⟨by decide, comma⟩, ⟨by decide, other.2.1⟩, ⟨by decide, zero⟩,
    ⟨by decide, other.2.2.1⟩, ⟨?_, number⟩, ⟨by decide, other.2.2.2⟩, by decide, colon⟩
  simp [quoteFree]

end

/-- The error text, if there is one, stays between its quotes. -/
def Ending.Sealed : Ending → Prop
  | .ok _ _ _ => True
  | .fail _ error => Json.Inside false error

theorem Ending.rest_quote (ending : Ending) : ∃ more, ending.rest = '"' :: more := by
  cases ending with
  | ok bytes durationMs entries => exact ⟨_, rfl⟩
  | fail durationMs error => exact ⟨_, rfl⟩

/-- The words that a status line has after `"status":`. -/
def endingWords : List Line :=
  ["ok".toList, "fail".toList, "bytes".toList, "duration_ms".toList, "entries".toList,
    "error".toList]

theorem rightmost_rest {α : Type} {word more : Line} {found : Line → Option α}
    (keyed : Keyed ('"' :: (word ++ '"' :: ':' :: more)) found)
    (free : '"' ∉ word ∧ ':' ∉ word ∧ ',' ∉ word ∧ '\\' ∉ word) (other : word ∉ endingWords)
    {ending : Ending} (sealed_ : ending.Sealed) : rightmost found ending.rest = none := by
  simp only [endingWords, List.mem_cons, List.not_mem_nil, or_false, not_or] at other
  rcases other with ⟨ok, fail, bytes, duration, entries, error⟩
  cases ending with
  | ok own durationMs count =>
      exact rightmost_okRest keyed free.1 free.2.1 free.2.2.1 own durationMs count
        (by simp only [List.mem_cons, List.not_mem_nil, or_false, not_or]
            exact ⟨ok, bytes, duration, entries⟩)
  | fail durationMs own =>
      have front := rightmost_failRest keyed free.1 free.2.1 free.2.2.1 durationMs own
        (by simp only [List.mem_cons, List.not_mem_nil, or_false, not_or]
            exact ⟨fail, bytes, duration, error⟩)
      exact front.trans (rightmost_inside keyed free.1 free.2.2.2 sealed_)

/-- A status line up to the word `status`. -/
theorem Report.text_eq (report : Report) {more : Line} (rest : report.ending.rest = '"' :: more) :
    report.text = '\x7b' :: '"' :: ("service".toList ++ pieces (middle report.service report.method)
      ('"' :: ("status".toList ++ '"' :: (":".toList ++ '"' :: more)))) := by
  rw [Report.text, rest]
  simp only [pieces, middle, List.foldr_cons, List.foldr_nil, List.cons_append, List.nil_append]

theorem middle_quote (name : Line) (method : Method) (rest : Line) :
    ∃ more, pieces (middle name method) rest = '"' :: (":".toList ++ '"' :: more) := ⟨_, rfl⟩

/-- What is found after the word `service`. -/
theorem rightmost_text {α : Type} {word more : Line} {found : Line → Option α}
    (keyed : Keyed ('"' :: (word ++ '"' :: ':' :: more)) found)
    (free : '"' ∉ word ∧ ':' ∉ word ∧ ',' ∉ word)
    (report : Report) (named : '"' ∉ report.service)
    (other : word ≠ "method".toList ∧ word ≠ report.method.name.toList) (tail : Line) :
    rightmost found ("service".toList ++ pieces (middle report.service report.method)
      ('"' :: ("status".toList ++ '"' :: (":".toList ++ '"' :: tail)))) =
      rightmost found ('"' :: ("status".toList ++ '"' :: (":".toList ++ '"' :: tail))) := by
  rw [rightmost_append keyed (by decide),
    rightmost_middle keyed free.1 free.2.1 free.2.2 named report.method other]

theorem method_ne {word : Line} (other : word ∉ ["sqlite".toList, "stop_tar".toList, "tar".toList,
    "pg_dump".toList, "pg_globals".toList]) (method : Method) : word ≠ method.name.toList := by
  simp only [List.mem_cons, List.not_mem_nil, or_false, not_or] at other
  cases method with
  | sqlite => exact other.1
  | stopTar => exact other.2.1
  | tar => exact other.2.2.1
  | pgDump => exact other.2.2.2.1
  | pgGlobals => exact other.2.2.2.2

/-- The group takes a word whole that another character ends. -/
theorem Group.here_word (group : Group) {word : Line}
    (own : ∀ char ∈ word, group.accepts char = true)
    (visible : word ≠ []) {mark : Char} {tail : Line} (other : group.accepts mark = false)
    (closes : group.close <+: mark :: tail) :
    group.here (group.key ++ (word ++ mark :: tail)) = some word := by
  have taken : (word ++ mark :: tail).takeWhile group.accepts = word := by
    rw [List.takeWhile_append_of_pos own, List.takeWhile_cons_of_neg (by simp [other]),
      List.append_nil]
  have dropped : (word ++ mark :: tail).dropWhile group.accepts = mark :: tail := by
    rw [List.dropWhile_append_of_pos own, List.dropWhile_cons_of_neg (by simp [other])]
  rw [Group.here, if_pos (List.isPrefixOf_iff_prefix.mpr (List.prefix_append _ _)),
    List.drop_left]
  simp only
  rw [taken, dropped, if_pos ⟨visible, List.isPrefixOf_iff_prefix.mpr closes⟩]

/-- What is found in the only line of a text. -/
theorem Group.read_line {group : Group} {text word : Line} (single : '\n' ∉ text)
    (found : group.last text = some word) (kept : Kept word) : group.read text = word := by
  rw [Group.read, splitChars_of_not_mem single, List.filterMap_cons, found]
  exact (congrArg captured (List.append_nil _)).trans (captured_newline kept)

/-- What is found in the last part is what is found. -/
theorem rightmost_later {α : Type} {found : Line → Option α} (front : Line) {rest : Line}
    {value : α} (later : rightmost found rest = some value) :
    rightmost found (front ++ rest) = some value := by
  induction front with
  | nil => exact later
  | cons char more induction => rw [List.cons_append, rightmost, induction]

theorem pieces_front (parts : List Line) (rest : Line) :
    ∃ front, pieces parts rest = front ++ rest := by
  induction parts with
  | nil => exact ⟨[], rfl⟩
  | cons part others induction =>
      rcases induction with ⟨front, equal⟩
      refine ⟨'"' :: (part ++ front), ?_⟩
      rw [List.cons_append, List.append_assoc, ← equal]
      rfl

section

variable {report : Report} (named : '"' ∉ report.service)

include named

theorem found_service (visible : report.service ≠ [])
    (nothing : serviceGroup.last report.ending.rest = none) :
    serviceGroup.last report.text = some report.service := by
  rcases report.ending.rest_quote with ⟨more, rest⟩
  rw [Group.last] at nothing
  rw [rest] at nothing
  have later := rightmost_text service_keyed (by decide) report named
    ⟨by decide, method_ne (by decide) report.method⟩ more
  have status : rightmost serviceGroup.here ('"' :: ("status".toList ++ '"' :: (":".toList ++
      '"' :: more))) = rightmost serviceGroup.here ('"' :: (":".toList ++ '"' :: more)) :=
    rightmost_piece service_keyed (by decide) (by decide) fun same => absurd same (by decide)
  have colon : rightmost serviceGroup.here ('"' :: (":".toList ++ '"' :: more)) =
      rightmost serviceGroup.here ('"' :: more) :=
    rightmost_piece service_keyed (by decide) (by decide) fun same => absurd same (by decide)
  rw [status, colon, nothing] at later
  rw [Group.last, report.text_eq rest, rightmost_cons service_keyed (by decide),
    rightmost_here later]
  have own : ∀ char ∈ report.service, serviceGroup.accepts char = true := by
    intro char member
    have other : char ≠ '"' := by
      intro same
      rw [same] at member
      exact named member
    exact decide_eq_true other
  generalize '"' :: ("status".toList ++ '"' :: (":".toList ++ '"' :: more)) = after
  have spelled : '"' :: ("service".toList ++ pieces (middle report.service report.method) after) =
      serviceGroup.key ++ (report.service ++ '"' :: (",".toList ++ pieces ["method".toList,
        ":".toList, report.method.name.toList, ",".toList] after)) := by
    rw [show serviceGroup.key = '"' :: ("service".toList ++ '"' :: (":".toList ++ ['"'])) by decide]
    simp [pieces, middle]
  rw [spelled]
  exact serviceGroup.here_word own visible (by decide) ⟨_, rfl⟩

omit named in
/-- The size is the number after the word `bytes`. -/
theorem found_bytes {bytes durationMs : Int} {entries : Option Int} (positive : 0 ≤ bytes)
    (ok : report.ending = .ok bytes durationMs entries) :
    bytesGroup.last report.text = some (decimal bytes) := by
  have own : ∀ char ∈ decimal bytes, bytesGroup.accepts char = true := by
    intro char member
    rcases mem_decimal member with minus | digit
    · rcases Int.eq_ofNat_of_zero_le positive with ⟨size, rfl⟩
      rw [minus, decimal_natCast] at member
      exact absurd (Json.toDigits_isDigit size member) (by decide)
    · exact digit
  have visible : decimal bytes ≠ [] := by
    cases bytes with
    | ofNat size =>
        rw [Int.ofNat_eq_natCast, decimal_natCast]
        simp
    | negSucc size =>
        rw [decimal, Json.toList_toString_negSucc]
        simp
  have nothing : rightmost bytesGroup.here ('"' :: ((':' :: decimal bytes ++ [',']) ++
      '"' :: ("duration_ms".toList ++
        '"' :: (':' :: decimal durationMs ++ entriesRest entries)))) = none :=
    rightmost_numbers bytes_keyed (by decide) (by decide) bytes durationMs entries (by decide)
  generalize ends : '"' :: ("duration_ms".toList ++ '"' ::
    (':' :: decimal durationMs ++ entriesRest entries)) = after at nothing
  have here : rightmost bytesGroup.here ('"' :: ("bytes".toList ++ '"' ::
      ((':' :: decimal bytes ++ [',']) ++ after))) = some (decimal bytes) := by
    rw [rightmost_here]
    · have spelled : '"' :: ("bytes".toList ++ '"' :: ((':' :: decimal bytes ++ [',']) ++ after)) =
          bytesGroup.key ++ (decimal bytes ++ ',' :: after) := by
        rw [show bytesGroup.key = '"' :: ("bytes".toList ++ '"' :: [':']) by decide]
        simp
      rw [spelled]
      exact bytesGroup.here_word own visible (by decide) List.nil_prefix
    · rw [rightmost_append bytes_keyed (by decide), nothing]
  have rest : report.ending.rest = pieces ["ok".toList, ",".toList] ('"' :: ("bytes".toList ++
      '"' :: ((':' :: decimal bytes ++ [',']) ++ after))) := by
    rw [ok, ← ends]
    rfl
  rcases pieces_front ["ok".toList, ",".toList] ('"' :: ("bytes".toList ++
    '"' :: ((':' :: decimal bytes ++ [',']) ++ after))) with ⟨inner, equal⟩
  rcases pieces_front ("service".toList :: (middle report.service report.method ++
    ["status".toList, ":".toList])) report.ending.rest with ⟨outer, whole⟩
  rw [Group.last, Report.text, whole, rest, equal, ← List.append_assoc, ← List.cons_append]
  exact rightmost_later _ here

/-- The glob matches a good status line and no other. -/
theorem countedOk_text (sealed_ : report.ending.Sealed) :
    countedOk report.text = true ↔ ∃ bytes durationMs entries,
      report.ending = .ok bytes durationMs entries := by
  rw [countedOk, contains_eq _ _ (by decide)]
  rcases report.ending.rest_quote with ⟨more, rest⟩
  have nothing : rightmost (starts "\"status\":\"ok\"") report.ending.rest = none :=
    rightmost_rest status_keyed (by decide) (by decide) sealed_
  rw [rest] at nothing
  -- What is found is found at the word `status`.
  have here : rightmost (starts "\"status\":\"ok\"") report.text = starts "\"status\":\"ok\""
      ('"' :: ("status".toList ++ '"' :: (":".toList ++ '"' :: more))) := by
    rcases middle_quote report.service report.method
      ('"' :: ("status".toList ++ '"' :: (":".toList ++ '"' :: more))) with ⟨tail, equal⟩
    have middle := rightmost_middle status_keyed (by decide) (by decide) (by decide) named
      report.method ⟨by decide, method_ne (by decide) report.method⟩
      ("status".toList ++ '"' :: (":".toList ++ '"' :: more))
    rw [equal] at middle
    rw [report.text_eq rest, equal, rightmost_cons status_keyed (by decide),
      rightmost_piece status_keyed (by decide) (by decide) fun same => absurd same (by decide),
      middle, rightmost_here]
    rw [rightmost_append status_keyed (by decide),
      rightmost_piece status_keyed (by decide) (by decide) fun same => absurd same (by decide),
      nothing]
  have key : "\"status\":\"ok\"".toList =
      '"' :: ("status".toList ++ '"' :: (":".toList ++ '"' :: ['o', 'k', '"'])) := by decide
  rw [here, starts, key]
  cases ending : report.ending with
  | ok bytes durationMs entries =>
      rw [ending, Ending.rest, okRest, pieces, List.foldr_cons, List.foldr_cons] at rest
      rw [← (List.cons.inj rest).2, if_pos]
      · simp
      · rw [List.isPrefixOf_iff_prefix]
        simp [List.cons_prefix_cons]
  | fail durationMs error =>
      rw [ending, Ending.rest, failRest, pieces, List.foldr_cons] at rest
      rw [← (List.cons.inj rest).2, if_neg]
      · simp
      · rw [List.isPrefixOf_iff_prefix]
        simp [List.cons_prefix_cons]

end

end Homelab.Backup
