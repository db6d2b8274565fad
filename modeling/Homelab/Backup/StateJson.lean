import Homelab.Backup.StatusLine

/-! # The state file as JSON

What the state file of a run reads as, where every recipe printed its status line and every
error text stays what it is between quotes.
-/

namespace Homelab.Backup

open Text Python

/-! ## Names -/

def isWordChar (char : Char) : Bool :=
  let code := char.toNat
  (48 ≤ code && code ≤ 57) || (65 ≤ code && code ≤ 90) || (97 ≤ code && code ≤ 122) ||
    code = 45 || code = 46 || code = 95

def IsWord (name : Line) : Prop := name ≠ [] ∧ ∀ char ∈ name, isWordChar char = true

instance (name : Line) : Decidable (IsWord name) := inferInstanceAs (Decidable (_ ∧ _))

theorem wordChar_visible {char : Char} (own : isWordChar char = true) :
    45 ≤ char.toNat ∧ char.toNat < 123 := by
  simp only [isWordChar, Bool.or_eq_true, Bool.and_eq_true, decide_eq_true_iff] at own
  omega

theorem wordChar_ne {char other : Char} (own : isWordChar char = true)
    (differs : isWordChar other = false) : char ≠ other := by
  intro same
  rw [same, differs] at own
  cases own

theorem IsWord.not_mem {name : Line} (word : IsWord name) {other : Char}
    (differs : isWordChar other = false) : other ∉ name :=
  fun member => wordChar_ne (word.2 other member) differs rfl

theorem IsWord.plain {name : Line} (word : IsWord name) : ∀ char ∈ name, Json.Plain char := by
  intro char member
  have own := word.2 char member
  have visible := wordChar_visible own
  exact ⟨wordChar_ne own (by decide), wordChar_ne own (by decide), by omega⟩

theorem IsWord.kept {name : Line} (word : IsWord name) : Kept name :=
  ⟨word.not_mem (by decide), word.not_mem (by decide)⟩

structure Run.Named (run : Run) : Prop where
  word : ∀ service ∈ run.services, IsWord service.name
  distinct : (run.services.map Service.name).Nodup

/-! ## Bytes and text -/

/-- The ending with its error as the text that is read, if it is one. -/
def Ending.opened : Ending → Option Ending
  | .ok bytes durationMs entries => some (.ok bytes durationMs entries)
  | .fail durationMs error => (Utf8.opened error).map (.fail durationMs)

def Clear (line : Line) : Prop := ∀ char ∈ line, char.toNat < 128 ∧ char ≠ '\r'

instance (line : Line) : Decidable (Clear line) := inferInstanceAs (Decidable (∀ _ ∈ _, _))

theorem Clear.append {first rest : Line} (left : Clear first) (right : Clear rest) :
    Clear (first ++ rest) := by
  intro char member
  rcases List.mem_append.mp member with member | member
  · exact left char member
  · exact right char member

theorem Clear.cons {char : Char} {line : Line} (here : Clear [char]) (rest : Clear line) :
    Clear (char :: line) := here.append rest

theorem Clear.before {line : Line} (clear : Clear line) (rest : Line) :
    Utf8.opened (line ++ rest) = (Utf8.opened rest).map (line ++ ·) :=
  Utf8.opened_append (Utf8.decode_ascii fun char member => (clear char member).1)
    (fun member => (clear _ member).2 rfl) rest

theorem Clear.opened {line : Line} (clear : Clear line) : Utf8.opened line = some line :=
  Utf8.opened_ascii (fun char member => (clear char member).1)
    (fun member => (clear _ member).2 rfl)

theorem IsWord.clear {name : Line} (word : IsWord name) : Clear name := by
  intro char member
  have visible := wordChar_visible (word.2 char member)
  exact ⟨by omega, wordChar_ne (word.2 char member) (by decide)⟩

theorem clear_decimal (value : Int) : Clear (decimal value) := by
  intro char member
  rcases mem_decimal member with rfl | digit
  · decide
  · have bound : char.toNat ≤ 57 := by
      simp only [Char.isDigit, Bool.and_eq_true, decide_eq_true_iff] at digit
      exact digit.2
    refine ⟨by omega, ?_⟩
    rintro rfl
    cases digit

theorem clear_pieces {parts : List Line} {rest : Line} (each : ∀ part ∈ parts, Clear part)
    (last : Clear rest) : Clear (pieces parts rest) := by
  induction parts with
  | nil => exact last
  | cons part others induction =>
      have later := induction fun own member => each own (List.mem_cons_of_mem _ member)
      exact Clear.cons (by decide) ((each part List.mem_cons_self).append later)

theorem clear_method (method : Method) : Clear method.name.toList := by
  cases method <;> decide

def failFront (name : Line) (method : Method) (durationMs : Int) : Line :=
  '\x7b' :: pieces ("service".toList :: (middle name method ++ ["status".toList, ":".toList,
    "fail".toList, ",".toList, "bytes".toList, ":0,".toList, "duration_ms".toList,
    ':' :: decimal durationMs ++ [','], "error".toList, ":".toList])) ['"']

theorem pieces_front_nil (parts : List Line) (rest : Line) :
    pieces parts rest = pieces parts [] ++ rest := by
  induction parts with
  | nil => rfl
  | cons part others induction =>
      show '"' :: (part ++ pieces others rest) = '"' :: (part ++ pieces others []) ++ rest
      rw [induction, List.cons_append, List.append_assoc]

theorem text_fail (name : Line) (method : Method) (durationMs : Int) (error : Line) :
    Report.text ⟨name, method, .fail durationMs error⟩ =
      failFront name method durationMs ++ (error ++ ['"', '\x7d']) := by
  have ending : (Ending.fail durationMs error).rest = pieces ["fail".toList, ",".toList,
      "bytes".toList, ":0,".toList, "duration_ms".toList, ':' :: decimal durationMs ++ [','],
      "error".toList, ":".toList] ('"' :: (error ++ ['"', '\x7d'])) := rfl
  rw [Report.text, ending, ← pieces_append, failFront, List.cons_append, pieces_front_nil]
  rw [pieces_front_nil _ ['"']]
  simp

theorem clear_failFront {name : Line} (word : IsWord name) (method : Method) (durationMs : Int) :
    Clear (failFront name method durationMs) := by
  refine Clear.cons (by decide) (clear_pieces ?_ (by decide))
  simp only [middle, List.cons_append, List.nil_append, List.forall_mem_cons, List.not_mem_nil,
    false_implies, implies_true, and_true]
  exact ⟨by decide, by decide, word.clear, by decide, by decide, by decide, clear_method _,
    by decide, by decide, by decide, by decide, by decide, by decide, by decide, by decide,
    Clear.cons (by decide) ((clear_decimal durationMs).append (by decide)), by decide, by decide⟩

theorem clear_ok {name : Line} (word : IsWord name) (method : Method) (bytes durationMs : Int)
    (entries : Option Int) :
    Clear (Report.text ⟨name, method, .ok bytes durationMs entries⟩) := by
  have last : Clear (entriesRest entries) := by
    cases entries with
    | none => decide
    | some entries =>
        refine Clear.cons (by decide) (clear_pieces ?_ (Clear.cons (by decide)
          (Clear.cons (by decide) ((clear_decimal entries).append (by decide)))))
        intro part member
        rw [List.mem_singleton.mp member]
        decide
  have rest : Clear (Ending.ok bytes durationMs entries).rest := by
    refine clear_pieces ?_ (Clear.cons (by decide) ((Clear.cons (by decide)
      (clear_decimal durationMs)).append last))
    simp only [List.forall_mem_cons, List.not_mem_nil, false_implies, implies_true, and_true]
    exact ⟨by decide, by decide, by decide,
      Clear.cons (by decide) ((clear_decimal bytes).append (by decide)), by decide⟩
  refine Clear.cons (by decide) (clear_pieces ?_ rest)
  simp only [middle, List.cons_append, List.nil_append, List.forall_mem_cons, List.not_mem_nil,
    false_implies, implies_true, and_true]
  exact ⟨by decide, by decide, word.clear, by decide, by decide, by decide, clear_method _,
    by decide, by decide, by decide⟩

/-- A status line is text exactly where its error is. -/
theorem opened_text {name : Line} (word : IsWord name) (method : Method) (ending : Ending) :
    Utf8.opened (Report.text ⟨name, method, ending⟩) =
      ending.opened.map fun own => Report.text ⟨name, method, own⟩ := by
  cases ending with
  | ok bytes durationMs entries =>
      rw [(clear_ok word method bytes durationMs entries).opened]
      rfl
  | fail durationMs error =>
      have close : Utf8.opened ['"', '\x7d'] = some ['"', '\x7d'] := by decide
      rw [text_fail, (clear_failFront word method durationMs).before,
        Utf8.opened_split error (by decide) (by decide), close, Ending.opened]
      cases Utf8.opened error with
      | none => rfl
      | some text =>
          simp only [Option.bind_some, Option.map_some]
          rw [text_fail]

/-! ## A status line as an object -/

def member (name chars rest : Line) : Line := '"' :: (name ++ '"' :: ':' :: (chars ++ rest))

def quote (chars : Line) : Line := '"' :: chars ++ ['"']

theorem reads_quote (depth : Nat) {raw text : Line} (quotes : Json.Quotes raw text) :
    Json.Reads depth (quote raw) (.str (.ofList text)) := quotes.reads depth

theorem members_last {depth : Nat} {name : String} {chars : Line} {value : Value}
    (plain : ∀ char ∈ name.toList, Json.Plain char) (reads : Json.Reads depth chars value) :
    Json.Members depth (member name.toList chars ['\x7d']) [(name, value)] := by
  have members := Json.Members.last (Json.quotes_plain plain) Json.no_spaces reads Json.no_spaces
  simpa [member] using members

theorem members_more {depth : Nat} {name : String} {chars text : Line} {value : Value}
    {fields : List (String × Value)} (plain : ∀ char ∈ name.toList, Json.Plain char)
    (reads : Json.Reads depth chars value) (members : Json.Members depth text fields) :
    Json.Members depth (member name.toList chars (',' :: text)) ((name, value) :: fields) := by
  have more := Json.Members.more (Json.quotes_plain plain) Json.no_spaces reads Json.no_spaces
    members
  simpa [member] using more

theorem reads_decimal (depth : Nat) {value : Int} (inWord : InWord value) :
    Json.Reads depth (decimal value) (.int value) := by
  have length : (Nat.toDigits 10 value.natAbs).length ≤ 19 :=
    (Nat.length_toDigits_le_iff (by decide) (by decide)).mpr (by unfold InWord at inWord; omega)
  exact Json.reads_int depth (by omega)

/-- What an ending says, where JSON reads its error as `error`. -/
def Ending.object (error : String) : Ending → List (String × Value)
  | .ok bytes durationMs entries =>
      [("status", .str "ok"), ("bytes", .int bytes), ("duration_ms", .int durationMs)] ++
        entries.toList.map fun entries => ("entries", .int entries)
  | .fail durationMs _ =>
      [("status", .str "fail"), ("bytes", .int 0), ("duration_ms", .int durationMs),
        ("error", .str error)]

def Report.object (error : String) (report : Report) : List (String × Value) :=
  [("service", .str (.ofList report.service)), ("method", .str report.method.name)] ++
    report.ending.object error

def Ending.Numbers : Ending → Prop
  | .ok bytes durationMs entries =>
      InWord bytes ∧ InWord durationMs ∧ ∀ number ∈ entries, InWord number
  | .fail durationMs _ => InWord durationMs

/-- The members after the word `status`. -/
theorem members_ending (depth : Nat) {ending : Ending} (numbers : ending.Numbers)
    {error : String} (quotes : ∀ durationMs raw, ending = .fail durationMs raw →
      Json.Quotes raw error.toList) :
    ∃ text, Json.Members depth text (ending.object error) ∧
      '"' :: ("status".toList ++ '"' :: (":".toList ++ ending.rest)) = text := by
  cases ending with
  | ok bytes durationMs entries =>
      have word : Json.Quotes "ok".toList "ok".toList := Json.quotes_plain (by decide)
      have status := reads_quote depth word
      have size := reads_decimal depth numbers.1
      have duration := reads_decimal depth numbers.2.1
      cases entries with
      | none =>
          refine ⟨_, members_more (by decide) status (members_more (by decide) size
            (members_last (by decide) duration)), ?_⟩
          simp [member, quote, Ending.rest, okRest, entriesRest, pieces]
      | some entries =>
          have count := reads_decimal depth (numbers.2.2 entries rfl)
          refine ⟨_, members_more (by decide) status (members_more (by decide) size
            (members_more (by decide) duration (members_last (by decide) count))), ?_⟩
          simp [member, quote, Ending.rest, okRest, entriesRest, pieces]
  | fail durationMs raw =>
      have word : Json.Quotes "fail".toList "fail".toList := Json.quotes_plain (by decide)
      have status := reads_quote depth word
      have zeroText : decimal 0 = ['0'] := rfl
      have zero : Json.Reads depth (decimal 0) (.int 0) := reads_decimal depth (by decide)
      have duration := reads_decimal depth numbers
      have told := reads_quote depth (quotes durationMs raw rfl)
      rw [String.ofList_toList] at told
      refine ⟨_, members_more (by decide) status (members_more (by decide) zero
        (members_more (by decide) duration (members_last (by decide) told))), ?_⟩
      simp [member, quote, Ending.rest, failRest, pieces, zeroText]

theorem object_distinct (report : Report) (error : String) :
    ((report.object error).map Prod.fst).Nodup := by
  rcases report with ⟨name, method, ending⟩
  cases ending with
  | ok bytes durationMs entries =>
      cases entries with
      | none => simp [Report.object, Ending.object]
      | some entries => simp [Report.object, Ending.object]
  | fail durationMs raw => simp [Report.object, Ending.object]

/-- A status line is an object. -/
theorem reads_report (depth : Nat) {report : Report} (word : IsWord report.service)
    (numbers : report.ending.Numbers) {error : String}
    (quotes : ∀ durationMs raw, report.ending = .fail durationMs raw →
      Json.Quotes raw error.toList) :
    Json.Reads (depth + 1) report.text (.dict (report.object error)) := by
  rcases members_ending depth numbers quotes with ⟨text, members, spelled⟩
  have name := reads_quote depth (Json.quotes_plain word.plain)
  have plain : ∀ char ∈ report.method.name.toList, Json.Plain char := by
    cases report.method <;> decide
  have method := reads_quote depth (Json.quotes_plain plain)
  rw [String.ofList_toList] at method
  have both : Json.Members depth _ (report.object error) :=
    members_more (by decide) name (members_more (by decide) method members)
  have whole := both.reads Json.no_spaces
  have equal : report.text = '\x7b' :: [] ++ member "service".toList (quote report.service)
      (',' :: member "method".toList (quote report.method.name.toList) (',' :: text)) := by
    rw [← spelled, Report.text]
    simp [member, quote, pieces, middle]
  rw [equal]
  rw [Json.putAll_nil (object_distinct report error)] at whole
  exact whole

/-! ## The map of the services -/

structure Item where
  name : Line
  text : Line
  value : Value

def Item.member (item : Item) : Line := Backup.member item.name item.text []

def Item.field (item : Item) : String × Value := (.ofList item.name, item.value)

theorem members_items {depth : Nat} {items : List Item} (visible : items ≠ [])
    (each : ∀ item ∈ items, IsWord item.name ∧ Json.Reads depth item.text item.value) :
    Json.Members depth ([','].intercalate (items.map Item.member) ++ ['\x7d'])
      (items.map Item.field) := by
  induction items with
  | nil => exact absurd rfl visible
  | cons item rest induction =>
      have own := each item List.mem_cons_self
      cases rest with
      | nil =>
          have last := Json.Members.last (Json.quotes_plain own.1.plain) Json.no_spaces own.2
            Json.no_spaces
          simpa [Item.member, Item.field, member] using last
      | cons next others =>
          have later := induction (by simp) fun other inside =>
            each other (List.mem_cons_of_mem _ inside)
          have more := Json.Members.more (Json.quotes_plain own.1.plain) Json.no_spaces own.2
            Json.no_spaces later
          have step : [','].intercalate ((item :: next :: others).map Item.member) ++ ['\x7d'] =
              item.member ++ ',' ::
                ([','].intercalate ((next :: others).map Item.member) ++ ['\x7d']) := by
            simp [List.intercalate_cons_cons]
          rw [step]
          simpa [Item.member, Item.field, member] using more

theorem reads_map {depth : Nat} {items : List Item}
    (each : ∀ item ∈ items, IsWord item.name ∧ Json.Reads depth item.text item.value)
    (distinct : (items.map Item.name).Nodup) :
    Json.Reads (depth + 1)
      ('\x7b' :: ([','].intercalate (items.map Item.member) ++ ['\x7d']))
      (.dict (items.map Item.field)) := by
  cases items with
  | nil => exact Json.reads_empty_dict depth
  | cons item rest =>
      have whole := (members_items (List.cons_ne_nil _ _) each).reads Json.no_spaces
      have injective : Function.Injective String.ofList := fun first second same => by
        simpa using congrArg String.toList same
      have names : (((item :: rest).map Item.field).map Prod.fst).Nodup := by
        rw [List.map_map]
        have same : (Prod.fst ∘ Item.field) = String.ofList ∘ Item.name := rfl
        rw [same, ← List.map_map]
        exact distinct.map injective
      rw [Json.putAll_nil names] at whole
      exact whole

/-! ## The whole file -/

def line (name chars rest : Line) : Line :=
  '"' :: (name ++ '"' :: ':' :: ' ' :: (chars ++ rest))

theorem members_line {depth : Nat} {name : String} {chars text : Line} {value : Value}
    {fields : List (String × Value)} (plain : ∀ char ∈ name.toList, Json.Plain char)
    (reads : Json.Reads depth chars value) (members : Json.Members depth text fields) :
    Json.Members depth (line name.toList chars (',' :: '\n' :: ' ' :: ' ' :: text))
      ((name, value) :: fields) := by
  have space : ∀ char ∈ [' '], Json.isSpace char = true := by decide
  have indent : ∀ char ∈ ['\n', ' ', ' '], Json.isSpace char = true := by decide
  have more := Json.Members.more (Json.quotes_plain plain) space reads indent members
  simpa [line] using more

theorem members_line_last {depth : Nat} {name : String} {chars : Line} {value : Value}
    (plain : ∀ char ∈ name.toList, Json.Plain char) (reads : Json.Reads depth chars value) :
    Json.Members depth (line name.toList chars ['\n', '\x7d']) [(name, value)] := by
  have space : ∀ char ∈ [' '], Json.isSpace char = true := by decide
  have ends : ∀ char ∈ ['\n'], Json.isSpace char = true := by decide
  have last := Json.Members.last (Json.quotes_plain plain) space reads ends
  simpa [line] using last

def Run.status (run : Run) : String := if run.counts.failed > 0 then "fail" else "ok"

def Run.object (run : Run) (services : List (String × Value)) : List (String × Value) :=
  [("last_run_ts", .str (.ofList run.ended.text)), ("started", .str (.ofList run.started.text)),
    ("status", .str run.status), ("ok", .int run.counts.ok), ("failed", .int run.counts.failed),
    ("total_bytes", .int run.counts.totalBytes), ("duration_ms", .int run.durationMs.value),
    ("free_gb_at_start", .int run.freeGb.value), ("prune_removed", .int run.removed.value),
    ("per_service", .dict services)]

structure Counts.InRange (counts : Counts) : Prop where
  ok : InWord counts.ok
  failed : InWord counts.failed
  totalBytes : InWord counts.totalBytes

theorem inWord_wrapped (value : Int) : InWord (wrapped value) := by
  have low := Int.le_bmod (x := value) (m := 2 ^ 64) (by decide)
  have high := Int.bmod_lt (x := value) (m := 2 ^ 64) (by decide)
  rw [InWord, wrapped]
  omega

theorem Counts.InRange.add {counts : Counts} (fits : counts.InRange) (result : Line) :
    (counts.add result).InRange := by
  rw [Counts.add]
  split
  · simp only
    split
    · exact ⟨inWord_wrapped _, fits.failed, inWord_wrapped _⟩
    · exact ⟨inWord_wrapped _, fits.failed, fits.totalBytes⟩
  · exact ⟨fits.ok, inWord_wrapped _, fits.totalBytes⟩

theorem Run.counts_inRange (run : Run) : run.counts.InRange := by
  have each : ∀ (results : List Line) (counts : Counts), counts.InRange →
      (results.foldl Counts.add counts).InRange := by
    intro results
    induction results with
    | nil => exact fun counts fits => fits
    | cons result rest induction => exact fun counts fits => induction _ (fits.add result)
  exact each run.results _ ⟨by decide, by decide, by decide⟩

theorem object_names (run : Run) (services : List (String × Value)) :
    ((run.object services).map Prod.fst).Nodup := by
  simp [Run.object]

def Run.lines (run : Run) (text : Line) : Line :=
  let next : Line := [',', '\n', ' ', ' ']
  line "last_run_ts".toList (quote run.ended.text) (next ++
  line "started".toList (quote run.started.text) (next ++
  line "status".toList (quote run.status.toList) (next ++
  line "ok".toList (decimal run.counts.ok) (next ++
  line "failed".toList (decimal run.counts.failed) (next ++
  line "total_bytes".toList (decimal run.counts.totalBytes) (next ++
  line "duration_ms".toList (decimal run.durationMs.value) (next ++
  line "free_gb_at_start".toList (decimal run.freeGb.value) (next ++
  line "prune_removed".toList (decimal run.removed.value) (next ++
  line "per_service".toList text [])))))))))

theorem lines_eq (run : Run) (text : Line) :
    run.header ++ text = '\x7b' :: ['\n', ' ', ' '] ++ run.lines text := by
  have status : (if run.counts.failed > 0 then "fail" else "ok") = run.status := rfl
  have endedField : "\x7b\n  \"last_run_ts\": \"".toList = '\x7b' :: '\n' :: ' ' :: ' ' ::
      '"' :: ("last_run_ts".toList ++ ['"', ':', ' ', '"']) := by decide
  have startedField : "\",\n  \"started\": \"".toList = '"' :: ',' :: '\n' :: ' ' :: ' ' ::
      '"' :: ("started".toList ++ ['"', ':', ' ', '"']) := by decide
  have statusField : "\",\n  \"status\": \"".toList = '"' :: ',' :: '\n' :: ' ' :: ' ' ::
      '"' :: ("status".toList ++ ['"', ':', ' ', '"']) := by decide
  have okField : "\",\n  \"ok\": ".toList = '"' :: ',' :: '\n' :: ' ' :: ' ' ::
      '"' :: ("ok".toList ++ ['"', ':', ' ']) := by decide
  have failedField : ",\n  \"failed\": ".toList = ',' :: '\n' :: ' ' :: ' ' ::
      '"' :: ("failed".toList ++ ['"', ':', ' ']) := by decide
  have bytesField : ",\n  \"total_bytes\": ".toList = ',' :: '\n' :: ' ' :: ' ' ::
      '"' :: ("total_bytes".toList ++ ['"', ':', ' ']) := by decide
  have durationField : ",\n  \"duration_ms\": ".toList = ',' :: '\n' :: ' ' :: ' ' ::
      '"' :: ("duration_ms".toList ++ ['"', ':', ' ']) := by decide
  have freeField : ",\n  \"free_gb_at_start\": ".toList = ',' :: '\n' :: ' ' :: ' ' ::
      '"' :: ("free_gb_at_start".toList ++ ['"', ':', ' ']) := by decide
  have removedField : ",\n  \"prune_removed\": ".toList = ',' :: '\n' :: ' ' :: ' ' ::
      '"' :: ("prune_removed".toList ++ ['"', ':', ' ']) := by decide
  have servicesField : ",\n  \"per_service\": ".toList = ',' :: '\n' :: ' ' :: ' ' ::
      '"' :: ("per_service".toList ++ ['"', ':', ' ']) := by decide
  unfold Run.header Run.lines line quote
  rw [status]
  simp only [endedField, startedField, statusField, okField, failedField, bytesField,
    durationField, freeField, removedField, servicesField]
  simp only [List.append_assoc, List.cons_append, List.nil_append, List.append_nil]

theorem members_lines {depth : Nat} (run : Run) {text : Line} {services : List (String × Value)}
    (reads : Json.Reads depth text (.dict services)) :
    Json.Members depth (run.lines (text ++ ['\n', '\x7d'])) (run.object services) := by
  have last : line "per_service".toList (text ++ ['\n', '\x7d']) [] =
      line "per_service".toList text ['\n', '\x7d'] := by simp [line]
  have ended := reads_quote depth (Json.quotes_plain fun char member =>
    (run.ended.plain char member).1)
  have started := reads_quote depth (Json.quotes_plain fun char member =>
    (run.started.plain char member).1)
  have status : Json.Reads depth (quote run.status.toList) (.str run.status) := by
    have plain : ∀ char ∈ run.status.toList, Json.Plain char := by
      rw [Run.status]
      split <;> decide
    have own := reads_quote depth (Json.quotes_plain plain)
    rwa [String.ofList_toList] at own
  have fits := run.counts_inRange
  rw [Run.lines, last]
  exact members_line (by decide) ended (members_line (by decide) started
    (members_line (by decide) status (members_line (by decide) (reads_decimal depth fits.ok)
      (members_line (by decide) (reads_decimal depth fits.failed)
        (members_line (by decide) (reads_decimal depth fits.totalBytes)
          (members_line (by decide) (reads_decimal depth run.durationMs.inWord)
            (members_line (by decide) (reads_decimal depth run.freeGb.inWord)
              (members_line (by decide) (reads_decimal depth run.removed.inWord)
                (members_line_last (by decide) reads)))))))))

theorem loads_file {depth : Nat} (run : Run) {text : Line} {services : List (String × Value)}
    (reads : Json.Reads depth text (.dict services)) :
    Json.loads (depth + 1) (.ofList (run.header ++ text ++ "\n\x7d\n".toList)) =
      .ok (.dict (run.object services)) := by
  have indent : ∀ char ∈ ['\n', ' ', ' '], Json.isSpace char = true := by decide
  have whole := (members_lines run reads).reads indent
  rw [Json.putAll_nil (object_names run services)] at whole
  have file : run.header ++ text ++ "\n\x7d\n".toList =
      run.header ++ (text ++ ['\n', '\x7d']) ++ ['\n'] := by simp
  rw [file, lines_eq]
  exact Json.loads_of_reads whole (by decide)

end Homelab.Backup
