import Homelab.Foundation.JsonRoundTrip
import Homelab.SplitDns.Decider

/-! # The drift check around the decider

The script hands what `tailscale dns status` prints to the decider, takes its verdict
apart with two Python snippets, and publishes the figures as metrics. Whether a verdict
tells the truth is a question about the whole way.
-/

namespace Homelab.SplitDns

open Text Python

/-! ## The script -/

/-- What a shell variable keeps of a command's output. -/
def captured (output : List UInt8) : List UInt8 :=
  (output.filter (· ≠ 0)).rdropWhile (· = 10)

/-- Echo the text if it has only digits and minus signs, and `0` otherwise. -/
def numeric (text : String) : String :=
  if text = "" ∨ ∃ char ∈ text.toList, ¬(char.isDigit ∨ char = '-') then "0" else text

def len : Value → Except Raised Nat
  | .str text => .ok text.toList.length
  | .list items => .ok items.length
  | .dict fields => .ok fields.length
  | _ => .error .typeError

/-- `text.strip()` of a value that has to be a text. -/
def stripped : Value → Except Raised String
  | .str text => .ok (strip text)
  | _ => .error .attributeError

section Snippets

variable (python : Interpreter)

def verdictFields (verdict : String) : Except Raised (List (String × Value)) := do
  match ← Json.loads python.depth verdict with
  | .dict fields => .ok fields
  | _ => .error .attributeError

def figures (verdict : String) : Except Raised (List String) := do
  let fields ← verdictFields python verdict
  let count := fun name => len ((fields.lookup name).getD (.list []))
  let missing ← count "missing"
  let misrouted ← count "misrouted"
  let stale ← count "stale"
  return [python.str ((fields.lookup "ok").getD (.int 0)), toString missing,
    toString misrouted, toString stale, python.str ((fields.lookup "scrape_ok").getD (.int 0))]

def domainSamples (verdict domains : String) : Except Raised (List String) := do
  let fields ← verdictFields python verdict
  let named := fun name => (fields.lookup name).getD (.list [])
  match named "missing", named "misrouted" with
  | .list missing, .list misrouted =>
      let bad ← (missing ++ misrouted).mapM stripped
      return (((split ',' domains).map strip).filter (· ≠ "")).map fun dom =>
        "tailscale_split_dns_domain_ok\x7bdomain=\"" ++ dom ++ "\"\x7d " ++
          (if bad.contains dom then "0" else "1")
  | _, _ => .error .typeError

def printed (lines : Except Raised (List String)) : String :=
  match lines with
  | .ok lines => printLines lines
  | .error _ => ""

end Snippets

def blank (char : Char) : Bool := char = ' ' || char = '\t'

/-- `read -r` into `count` variables and one more for the rest of the line. -/
def readWords : (count : Nat) → List Char → List String
  | 0, chars => [.ofList ((chars.dropWhile blank).rdropWhile blank)]
  | count + 1, chars =>
      let (word, rest) := (chars.dropWhile blank).span fun char => !blank char
      .ofList word :: readWords count rest

/-- The samples `emit` writes, without the comments between them. -/
def emitted (ok missing misrouted stale scrapeOk domainLines : String) (now : Nat) :
    List String :=
  ["tailscale_split_dns_ok " ++ numeric ok,
    "tailscale_split_dns_missing " ++ numeric missing,
    "tailscale_split_dns_misrouted " ++ numeric misrouted,
    "tailscale_split_dns_stale " ++ numeric stale,
    "tailscale_split_dns_scrape_ok " ++ numeric scrapeOk] ++
  (if domainLines = "" then [] else [domainLines]) ++
  ["tailscale_split_dns_last_run_unix_seconds " ++ toString now]

structure Surroundings where
  /-- The textfile directory is there and can be written. -/
  textfileDir : Bool
  now : Nat
  /-- What `tailscale dns status --json` prints. -/
  status : List UInt8

def check (python : Interpreter) (domains nameserver : String) (run : Surroundings) :
    Option String :=
  let emit := fun ok missing misrouted stale scrapeOk domainLines =>
    if run.textfileDir then
      some (printLines (emitted ok missing misrouted stale scrapeOk domainLines run.now))
    else none
  let status := captured run.status
  if status = [] then emit "0" "0" "0" "0" "0" ""
  else
    let verdict := substitute (main python domains nameserver status).stdout
    if verdict = "" then emit "0" "0" "0" "0" "0" ""
    else
      let figures := printed ((figures python verdict).map fun words =>
        [.ofList ([' '].intercalate (words.map String.toList))])
      let words := readWords 4 (figures.toList.takeWhile (· ≠ '\n'))
      let word := fun index => numeric (words.getD index "")
      emit (word 0) (word 1) (word 2) (word 3) (word 4)
        (substitute (printed (domainSamples python verdict domains)))

/-! ## The verdict on its way -/

def textsValue (texts : List String) : Value := .list (texts.map .str)

def changeValue (addrs : Option (List String)) : Value :=
  match addrs with
  | some addrs => textsValue addrs
  | none => .none

def Verdict.fields (verdict : Verdict) (scrapeOk : Nat) : List (String × Value) :=
  [("missing", textsValue verdict.missing),
    ("misrouted", textsValue verdict.misrouted),
    ("stale", textsValue verdict.stale),
    ("desired_patch", .dict (verdict.desiredPatch.entries.map fun entry =>
      (entry.1, changeValue entry.2))),
    ("ok", .int (if verdict.ok then 1 else 0 : Nat)),
    ("scrape_ok", .int scrapeOk)]

theorem reads_texts (depth : Nat) (texts : List String) :
    Json.Reads (depth + 1) (dumpTexts texts) (textsValue texts) := by
  have each : ∀ item ∈ texts.map fun text => (Json.dumpText text, Value.str text),
      Json.Reads depth item.1 item.2 := by
    intro item member
    rcases List.mem_map.mp member with ⟨text, _, rfl⟩
    exact Json.reads_dumpText depth text
  have reads := Json.reads_dumpList _ each
  simpa [dumpTexts, textsValue, Function.comp_def] using reads

theorem reads_change (depth : Nat) (addrs : Option (List String)) :
    Json.Reads (depth + 1) (dumpChange addrs) (changeValue addrs) := by
  cases addrs with
  | none => exact Json.reads_null _
  | some addrs => exact reads_texts depth addrs

theorem reads_flag (depth : Nat) {flag : Nat} (small : flag ≤ 1) :
    Json.Reads depth (toString flag).toList (.int flag) := by
  rw [Json.toList_toString]
  apply Json.reads_nat
  rw [Nat.toDigits_of_lt_base (by omega), List.length_singleton]
  decide

theorem loads_text (python : Interpreter) (verdict : Verdict) {scrapeOk : Nat}
    (small : scrapeOk ≤ 1) :
    Json.loads python.depth (verdict.text scrapeOk) = .ok (.dict (verdict.fields scrapeOk)) := by
  rcases Nat.exists_eq_add_of_le' python.deep with ⟨depth, same⟩
  have patch : Json.Reads (depth + 2)
      (Json.dumpDict (verdict.desiredPatch.entries.map fun entry =>
        (entry.1, dumpChange entry.2)))
      (.dict (verdict.desiredPatch.entries.map fun entry => (entry.1, changeValue entry.2))) := by
    have each : ∀ field ∈ verdict.desiredPatch.entries.map fun entry =>
        (entry.1, dumpChange entry.2, changeValue entry.2),
        Json.Reads (depth + 1) field.2.1 field.2.2 := by
      intro field member
      rcases List.mem_map.mp member with ⟨entry, _, rfl⟩
      exact reads_change depth entry.2
    have reads := Json.reads_dumpDict _ each (by
      simpa [Function.comp_def] using verdict.desiredPatch.distinct)
    simpa [Function.comp_def] using reads
  have flag : (if verdict.ok then 1 else 0) ≤ 1 := by
    split <;> decide
  have each : ∀ field ∈ [
      ("missing", dumpTexts verdict.missing, textsValue verdict.missing),
      ("misrouted", dumpTexts verdict.misrouted, textsValue verdict.misrouted),
      ("stale", dumpTexts verdict.stale, textsValue verdict.stale),
      ("desired_patch", Json.dumpDict (verdict.desiredPatch.entries.map fun entry =>
        (entry.1, dumpChange entry.2)), Value.dict (verdict.desiredPatch.entries.map fun entry =>
          (entry.1, changeValue entry.2))),
      ("ok", (toString (if verdict.ok then 1 else 0)).toList,
        Value.int (if verdict.ok then 1 else 0 : Nat)),
      ("scrape_ok", (toString scrapeOk).toList, Value.int scrapeOk)],
      Json.Reads (depth + 2) field.2.1 field.2.2 := by
    simp only [List.forall_mem_cons]
    exact ⟨reads_texts _ _, reads_texts _ _, reads_texts _ _, patch, reads_flag _ flag,
      reads_flag _ small, by simp⟩
  have reads := Json.reads_dumpDict _ each (by simp)
  rw [same]
  have loaded := Json.loads_of_reads reads Json.no_spaces
  rw [List.append_nil] at loaded
  exact loaded

theorem len_texts (texts : List String) : len (textsValue texts) = .ok texts.length := by
  simp [len, textsValue]

theorem figures_text (python : Interpreter) (verdict : Verdict) {scrapeOk : Nat}
    (small : scrapeOk ≤ 1) :
    figures python (verdict.text scrapeOk) =
      .ok [toString (if verdict.ok then 1 else 0), toString verdict.missing.length,
        toString verdict.misrouted.length, toString verdict.stale.length, toString scrapeOk] := by
  simp only [figures, verdictFields, loads_text python verdict small, bind, Except.bind,
    Verdict.fields, Table.lookup_cons, String.reduceEq, if_false, if_true, Option.getD_some,
    len_texts]
  rfl

/-! ## The figures on their way -/

def Digits (word : String) : Prop := word ≠ "" ∧ ∀ char ∈ word.toList, char.isDigit = true

theorem digits_toString (value : Nat) : Digits (toString value) := by
  rw [Digits, Json.toList_toString]
  refine ⟨fun empty => ?_, fun char => Json.toDigits_isDigit value⟩
  have none : Nat.toDigits 10 value = [] := by rw [← Json.toList_toString, empty]; rfl
  exact absurd none (by simp)

theorem numeric_digits {word : String} (digits : Digits word) : numeric word = word := by
  rw [numeric, if_neg]
  rintro (empty | ⟨char, member, other⟩)
  · exact digits.1 empty
  · exact other (.inl (digits.2 char member))

theorem not_blank_of_isDigit {char : Char} (digit : char.isDigit = true) :
    blank char = false := by
  simp [blank, Json.ne_of_isDigit digit]

theorem readWords_blank (count : Nat) (rest : List Char) :
    readWords count (' ' :: rest) = readWords count rest := by
  cases count <;> rfl

theorem dropWhile_blank {word : String} (digits : Digits word) (rest : List Char) :
    (word.toList ++ rest).dropWhile blank = word.toList ++ rest := by
  cases chars : word.toList with
  | nil => exact absurd (String.toList_eq_nil_iff.mp chars) digits.1
  | cons first more =>
      have digit := digits.2 first (by rw [chars]; exact List.mem_cons_self)
      rw [List.cons_append, List.dropWhile_cons_of_neg (by simp [not_blank_of_isDigit digit])]

theorem readWords_succ (count : Nat) {word : String} (digits : Digits word)
    (rest : List Char) :
    readWords (count + 1) (word.toList ++ ' ' :: rest) = word :: readWords count rest := by
  have visible : ∀ char ∈ word.toList, (!blank char) = true := fun char member => by
    rw [not_blank_of_isDigit (digits.2 char member)]
    rfl
  rw [readWords, dropWhile_blank digits]
  simp only [List.span_eq_takeWhile_dropWhile, List.takeWhile_append_of_pos visible,
    List.dropWhile_append_of_pos visible]
  rw [List.takeWhile_cons_of_neg (by decide), List.dropWhile_cons_of_neg (by decide),
    List.append_nil, String.ofList_toList, readWords_blank]

theorem readWords_zero {word : String} (digits : Digits word) :
    readWords 0 word.toList = [word] := by
  have dropped := dropWhile_blank digits []
  rw [List.append_nil] at dropped
  have kept : word.toList.rdropWhile blank = word.toList :=
    List.rdropWhile_eq_self_iff.mpr fun long => by
      simp [not_blank_of_isDigit (digits.2 _ (List.getLast_mem long))]
  rw [readWords, dropped, kept, String.ofList_toList]

/-- What the shell reads are the figures that were printed. -/
theorem readWords_figures {first second third fourth fifth : String} (one : Digits first)
    (two : Digits second) (three : Digits third) (four : Digits fourth) (five : Digits fifth) :
    readWords 4 ([' '].intercalate ([first, second, third, fourth, fifth].map String.toList)) =
      [first, second, third, fourth, fifth] := by
  simp only [List.map_cons, List.map_nil, List.intercalate_cons_cons,
    List.intercalate_singleton, List.append_assoc, List.singleton_append]
  rw [readWords_succ _ one, readWords_succ _ two, readWords_succ _ three, readWords_succ _ four,
    readWords_zero five]

theorem text_ends (verdict : Verdict) (scrapeOk : Nat) :
    ∃ front, (verdict.text scrapeOk).toList =
      front ++ (toString scrapeOk).toList ++ ['\x7d'] := by
  rw [Verdict.text, String.toList_ofList]
  exact Json.dumpDict_concat [("missing", _), ("misrouted", _), ("stale", _),
    ("desired_patch", _), ("ok", _)] "scrape_ok" (toString scrapeOk).toList

theorem text_inj {first second : Verdict} {one other : Nat} (small : one ≤ 1) (low : other ≤ 1)
    (same : first.text one = second.text other) : one = other := by
  rcases text_ends first one with ⟨front, own⟩
  rcases text_ends second other with ⟨before, given⟩
  have equal : (toString one).toList = (toString other).toList := by
    rw [same, given, List.append_assoc, List.append_assoc] at own
    have tails := List.append_inj_right' own (by
      simp [Nat.toDigits_of_lt_base (b := 10) (n := one) (by omega),
        Nat.toDigits_of_lt_base (b := 10) (n := other) (by omega)])
    exact (List.append_inj_left' tails rfl).symm
  rw [Json.toList_toString, Json.toList_toString] at equal
  rw [← Json.natOf_toDigits one, equal, Json.natOf_toDigits]

theorem substitute_text (verdict : Verdict) (scrapeOk : Nat) :
    substitute (verdict.text scrapeOk ++ "\n") = verdict.text scrapeOk := by
  rcases text_ends verdict scrapeOk with ⟨front, ends⟩
  rw [substitute, String.toList_append, ends]
  have line : "\n".toList = ['\n'] := rfl
  rw [line, List.rdropWhile_concat_pos _ _ _ (by decide),
    List.rdropWhile_concat_neg _ _ _ (by decide), ← ends, String.ofList_toList]

theorem takeWhile_printed {chars : List Char} (single : ∀ char ∈ chars, char ≠ '\n') :
    (printLines [.ofList chars]).toList.takeWhile (· ≠ '\n') = chars := by
  have visible : ∀ char ∈ chars, Decidable.decide (char ≠ '\n') = true := by simpa using single
  rw [printLines, String.toList_ofList, List.flatMap_singleton, String.toList_ofList,
    List.takeWhile_append_of_pos visible]
  simp

/-- Figures are digits with spaces between them. -/
theorem figures_visible {words : List String} (digits : ∀ word ∈ words, Digits word) :
    ∀ char ∈ [' '].intercalate (words.map String.toList), char ≠ '\n' := by
  induction words with
  | nil => exact fun char member => by cases member
  | cons word rest induction =>
      have visible : ∀ char ∈ word.toList, char ≠ '\n' := fun char member =>
        Json.ne_of_isDigit ((digits word List.mem_cons_self).2 char member) (by decide)
      rcases rest with _ | ⟨second, rest⟩
      · simpa using visible
      · intro char member
        rw [List.map_cons, List.map_cons, List.intercalate_cons_cons, List.mem_append,
          List.mem_append] at member
        rcases member with (member | member) | member
        · exact visible char member
        · rw [List.mem_singleton.mp member]
          decide
        · exact induction (fun other member => digits other (List.mem_cons_of_mem _ member))
            char member

/-- A run of the script publishes the figures of the verdict. -/
theorem check_verdict (python : Interpreter) (domains nameserver : String)
    (run : Surroundings) (verdict : Verdict) {scrapeOk : Nat} (small : scrapeOk ≤ 1)
    (handed : captured run.status ≠ [])
    (prints : (main python domains nameserver (captured run.status)).stdout =
      verdict.text scrapeOk ++ "\n") :
    check python domains nameserver run =
      if run.textfileDir then
        some (printLines (emitted (toString (if verdict.ok then 1 else 0))
          (toString verdict.missing.length) (toString verdict.misrouted.length)
          (toString verdict.stale.length) (toString scrapeOk)
          (substitute (printed (domainSamples python (verdict.text scrapeOk) domains))) run.now))
      else none := by
  have named : verdict.text scrapeOk ≠ "" := fun empty => by
    rcases text_ends verdict scrapeOk with ⟨front, ends⟩
    rw [empty] at ends
    simp at ends
  have words : readWords 4 ((printed ((figures python (verdict.text scrapeOk)).map fun words =>
      [.ofList ([' '].intercalate (words.map String.toList))])).toList.takeWhile (· ≠ '\n')) =
      [toString (if verdict.ok then 1 else 0), toString verdict.missing.length,
        toString verdict.misrouted.length, toString verdict.stale.length, toString scrapeOk] := by
    have digits : ∀ word ∈ [toString (if verdict.ok then 1 else 0),
        toString verdict.missing.length, toString verdict.misrouted.length,
        toString verdict.stale.length, toString scrapeOk], Digits word := by
      simp only [List.forall_mem_cons]
      exact ⟨digits_toString _, digits_toString _, digits_toString _, digits_toString _,
        digits_toString _, by simp⟩
    rw [figures_text python verdict small, Except.map, printed,
      takeWhile_printed (figures_visible digits)]
    exact readWords_figures (digits_toString _) (digits_toString _) (digits_toString _)
      (digits_toString _) (digits_toString _)
  simp only [check, if_neg handed, prints, substitute_text, if_neg named, words]
  simp only [List.getD_cons_zero, List.getD_cons_succ, numeric_digits (digits_toString _)]

/-! ## What can be read -/

/-- A server is an address, or an object that names one. -/
def Server : Value → Prop
  | .str _ => True
  | .dict fields =>
      match fields.lookup "Addr" with
      | none => True
      | some .none => True
      | some (.str _) => True
      | some _ => False
  | _ => False

/-- Null stands for a list without servers. -/
def ServerList : Value → Prop
  | .none => True
  | .list servers => ∀ server ∈ servers, Server server
  | _ => False

/-- Routes may be absent, or null for none at all. -/
def RouteMap : Option Value → Prop
  | none => True
  | some .none => True
  | some (.dict routes) => ∀ route ∈ routes, ServerList route.2
  | some _ => False

def RoutesRead (python : Interpreter) (stdin : List UInt8) : Prop :=
  ∃ raw data, python.decode stdin = some raw ∧
    Json.loads python.depth raw = .ok (.dict data) ∧ RouteMap (data.lookup "SplitDNSRoutes")

def Refused (python : Interpreter) (stdin : List UInt8) : Prop :=
  ∃ raw, python.decode stdin = some raw ∧
    (Json.loads python.depth raw = .error .valueError ∨
      ∃ value, Json.loads python.depth raw = .ok value ∧ ∀ data, value ≠ .dict data)

/-- The script hands the content to the decider as it is. -/
def Handed (stdin : List UInt8) : Prop :=
  stdin ≠ [] ∧ 0 ∉ stdin ∧ stdin.getLast? ≠ some 10

instance (stdin : List UInt8) : Decidable (Handed stdin) := inferInstanceAs (Decidable (_ ∧ _))

/-- The sample says that a domain, or every domain, is answered. -/
def Claims (line : String) : Prop :=
  line = "tailscale_split_dns_ok 1" ∨
    (startsWith "tailscale_split_dns_domain_ok\x7b" line = true ∧ endsWith " 1" line = true)

instance (line : String) : Decidable (Claims line) := inferInstanceAs (Decidable (_ ∨ _))

def Publishes (textfile : String) : Prop := ∃ line ∈ split '\n' textfile, Claims line

/-- Standard input that cannot be read is reported as such, and as nothing else. -/
structure Truthful (python : Interpreter) (domains nameserver : String)
    (stdin : List UInt8) : Prop where
  /-- One verdict is printed, and there is no traceback. -/
  verdict : ∃ verdict scrapeOk status,
    main python domains nameserver stdin =
      { stdout := Verdict.text verdict scrapeOk ++ "\n", exit := .ok status } ∧ status ≤ 2
  unread : ¬RoutesRead python stdin →
    ∃ verdict, main python domains nameserver stdin =
      { stdout := Verdict.text verdict 0 ++ "\n", exit := .ok 2 }
  published : ∀ run : Surroundings, captured run.status = stdin →
    ∀ textfile, check python domains nameserver run = some textfile → Publishes textfile →
      ∃ verdict, (main python domains nameserver stdin).stdout = Verdict.text verdict 1 ++ "\n"

/-! ## Reading the routes -/

theorem addresses_of_serverList (python : Interpreter) {entries : Value}
    (list : ServerList entries) : ∃ addrs, addresses python entries = .ok addrs := by
  cases entries with
  | none => exact ⟨[], rfl⟩
  | list servers =>
      rw [addresses]
      split
      · exact ⟨_, rfl⟩
      · exact ⟨_, rfl⟩
  | _ => cases list

theorem foldlM_ok {python : Interpreter} {routes : List (String × Value)}
    (lists : ∀ route ∈ routes, ServerList route.2) (out : Routes) :
    ∃ parsed, routes.foldlM
      (fun (out : Routes) route =>
        (addresses python route.2).map fun addrs => out.put route.1 addrs) out =
      .ok parsed := by
  induction routes generalizing out with
  | nil => exact ⟨out, rfl⟩
  | cons route rest induction =>
      rcases addresses_of_serverList python (lists route List.mem_cons_self) with
        ⟨addrs, read⟩
      rw [List.foldlM_cons, read]
      exact induction (fun other member => lists other (List.mem_cons_of_mem _ member)) _

theorem parseStatus_read {python : Interpreter} {raw : String} {data : List (String × Value)}
    (loaded : Json.loads python.depth raw = .ok (.dict data))
    (readable : RouteMap (data.lookup "SplitDNSRoutes")) :
    ∃ parsed, parseStatus python raw = .ok parsed := by
  have shape : ∃ routes, getOrEmpty "SplitDNSRoutes" data = .dict routes ∧
      ∀ route ∈ routes, ServerList route.2 := by
    rw [getOrEmpty]
    generalize data.lookup "SplitDNSRoutes" = found at readable
    rcases found with _ | value
    · exact ⟨[], rfl, fun route member => by cases member⟩
    · cases value with
      | none => exact ⟨[], rfl, fun route member => by cases member⟩
      | dict routes =>
          by_cases empty : (Value.dict routes).truthy
          · exact ⟨routes, if_pos empty, readable⟩
          · exact ⟨[], if_neg empty, fun route member => by cases member⟩
      | _ => cases readable
  rcases shape with ⟨routes, found, lists⟩
  rw [parseStatus, loaded]
  simp only [bind, Except.bind, found]
  exact foldlM_ok lists _

theorem addresses_not_valueError {python : Interpreter} {entries : Value} :
    addresses python entries ≠ .error .valueError := by
  intro raised
  rw [addresses] at raised
  split at raised
  · cases entries <;> cases raised
  · cases raised

theorem foldlM_not_valueError {python : Interpreter} {routes : List (String × Value)}
    (out : Routes) : routes.foldlM
      (fun (out : Routes) route =>
        (addresses python route.2).map fun addrs => out.put route.1 addrs) out ≠
      .error .valueError := by
  induction routes generalizing out with
  | nil => exact fun impossible => by cases impossible
  | cons route rest induction =>
      rw [List.foldlM_cons]
      cases read : addresses python route.2 with
      | ok addrs => exact induction _
      | error raised =>
          intro failed
          have same : raised = .valueError := by injection failed
          exact addresses_not_valueError (same ▸ read)

/-- Only what is refused makes the decider say that it could not read. -/
theorem refused_of_parseStatus {python : Interpreter} {stdin : List UInt8} {raw : String}
    (decoded : python.decode stdin = some raw)
    (failed : parseStatus python raw = .error .valueError) : Refused python stdin := by
  refine ⟨raw, decoded, ?_⟩
  rw [parseStatus] at failed
  cases loaded : Json.loads python.depth raw with
  | error raised =>
      rw [loaded] at failed
      injection failed with same
      exact .inl (congrArg Except.error same)
  | ok value =>
      refine .inr ⟨value, rfl, ?_⟩
      rintro data rfl
      rw [loaded] at failed
      simp only [bind, Except.bind] at failed
      split at failed
      · exact foldlM_not_valueError _ failed
      · cases failed

theorem parseStatus_of_refused {python : Interpreter} {stdin : List UInt8}
    (refused : Refused python stdin) :
    ∃ raw, python.decode stdin = some raw ∧ parseStatus python raw = .error .valueError := by
  rcases refused with ⟨raw, decoded, failed | ⟨value, loaded, other⟩⟩
  · refine ⟨raw, decoded, ?_⟩
    rw [parseStatus, failed]
    rfl
  · refine ⟨raw, decoded, ?_⟩
    rw [parseStatus, loaded]
    cases value with
    | dict data => exact absurd rfl (other data)
    | _ => rfl

/-! ## When the check tells the truth -/

theorem captured_of_handed {stdin : List UInt8} (handed : Handed stdin) :
    captured stdin = stdin := by
  have kept : stdin.filter (· ≠ 0) = stdin :=
    List.filter_eq_self.mpr fun byte member => by
      rw [decide_eq_true_iff]
      rintro rfl
      exact handed.2.1 member
  have line : stdin.rdropWhile (· = 10) = stdin :=
    List.rdropWhile_eq_self_iff.mpr fun long last => by
      rw [decide_eq_true_iff] at last
      exact handed.2.2 (last ▸ List.getLast?_eq_some_getLast long)
  rw [captured, kept, line]

theorem handed_of_captured {output : List UInt8} (long : captured output ≠ []) :
    Handed (captured output) := by
  refine ⟨long, fun member => ?_, fun last => ?_⟩
  · have listed := (List.rdropWhile_prefix _ _).subset member
    simp at listed
  · rw [List.getLast?_eq_some_getLast long, Option.some.injEq] at last
    have other := List.rdropWhile_last_not (fun byte : UInt8 => Decidable.decide (byte = 10)) _ long
    exact other (decide_eq_true last)

/-- Without a status the script claims nothing. -/
theorem not_publishes_nothing (now : Nat) :
    ¬Publishes (printLines (emitted "0" "0" "0" "0" "0" "" now)) := by
  have each : ∀ line ∈ emitted "0" "0" "0" "0" "0" "" now, OneLine line ∧ ¬Claims line := by
    have clock : OneLine ("tailscale_split_dns_last_run_unix_seconds " ++ toString now) ∧
        ¬Claims ("tailscale_split_dns_last_run_unix_seconds " ++ toString now) := by
      constructor
      · intro member
        rw [String.toList_append, List.mem_append] at member
        rcases member with member | member
        · revert member
          decide
        · exact Json.ne_of_isDigit ((digits_toString now).2 _ member) rfl rfl
      · have named : startsWith "tailscale_split_dns_l"
            ("tailscale_split_dns_last_run_unix_seconds " ++ toString now) = true := by
          rw [startsWith, String.toList_append]
          rfl
        have other : startsWith "tailscale_split_dns_domain_ok\x7b"
            ("tailscale_split_dns_last_run_unix_seconds " ++ toString now) = false := by
          rw [startsWith, String.toList_append]
          rfl
        rintro (same | ⟨domain, _⟩)
        · rw [same] at named
          revert named
          decide
        · rw [domain] at other
          cases other
    simp only [emitted, if_true, List.append_nil, List.cons_append, List.nil_append,
      List.forall_mem_cons]
    refine ⟨?_, ?_, ?_, ?_, ?_, clock, by simp⟩ <;> decide +kernel
  rintro ⟨line, member, claims⟩
  rw [split_printLines fun line member => (each line member).1, List.mem_append,
    List.mem_singleton] at member
  rcases member with member | rfl
  · exact (each line member).2 claims
  · revert claims
    decide

theorem main_read {python : Interpreter} (domains nameserver : String) {raw : String}
    {stdin : List UInt8} {actual : Routes} (decoded : python.decode stdin = some raw)
    (parsed : parseStatus python raw = .ok actual) :
    ∃ verdict : Verdict, main python domains nameserver stdin =
      { stdout := verdict.text 1 ++ "\n", exit := .ok (if verdict.ok then 0 else 1) } := by
  refine ⟨decide python.letters actual ((split ',' domains).filter fun d => strip d ≠ "")
    nameserver, ?_⟩
  simp only [main, decoded, parsed]

theorem main_refused {python : Interpreter} (domains nameserver : String)
    {stdin : List UInt8} (refused : Refused python stdin) :
    main python domains nameserver stdin =
      { stdout := Verdict.initial.text 0 ++ "\n", exit := .ok 2 } := by
  rcases parseStatus_of_refused refused with ⟨raw, decoded, failed⟩
  simp only [main, decoded, failed]

/-- What is handed to the decider and refused is published as an answer. -/
theorem publishes_refused {python : Interpreter} (domains nameserver : String)
    {stdin : List UInt8} (refused : Refused python stdin) (handed : Handed stdin) :
    ∃ textfile, check python domains nameserver
      { textfileDir := true, now := 0, status := stdin } = some textfile ∧
        Publishes textfile := by
  have same := captured_of_handed handed
  have published := check_verdict python domains nameserver
    { textfileDir := true, now := 0, status := stdin } .initial (Nat.zero_le 1)
    (by rw [same]; exact handed.1) (by rw [same, main_refused _ _ refused])
  refine ⟨_, published, "tailscale_split_dns_ok 1", ?_, .inl rfl⟩
  apply mem_split_printLines _ (by decide)
  rw [emitted, List.append_assoc, List.mem_append]
  left
  have figure : numeric (toString (if Verdict.initial.ok then 1 else 0)) = "1" :=
    numeric_digits (digits_toString 1)
  rw [figure]
  exact List.mem_cons_self

/-- The verdict on refused input says that nothing could be read, and its figures say that
all is well. -/
theorem not_truthful_of_refused {python : Interpreter} {domains nameserver : String}
    {stdin : List UInt8} (refused : Refused python stdin) (handed : Handed stdin) :
    ¬Truthful python domains nameserver stdin := by
  intro truthful
  rcases publishes_refused domains nameserver refused handed with ⟨textfile, published, publishes⟩
  rcases truthful.published _ (captured_of_handed handed) textfile published publishes with
    ⟨claimed, stdout⟩
  rw [main_refused _ _ refused] at stdout
  have same := congrArg substitute stdout
  rw [substitute_text, substitute_text] at same
  exact absurd (text_inj (by decide) (by decide) same) (by decide)

/-- A run of the check tells the truth about its input exactly when the routes can be read,
or the script does not hand over the input that is refused. -/
theorem truthful_iff (python : Interpreter) (domains nameserver : String)
    (stdin : List UInt8) :
    Truthful python domains nameserver stdin ↔
      RoutesRead python stdin ∨ (Refused python stdin ∧ ¬Handed stdin) := by
  constructor
  · intro truthful
    rcases truthful.verdict with ⟨verdict, scrapeOk, status, ran, _⟩
    by_cases read : RoutesRead python stdin
    · exact .inl read
    right
    rcases truthful.unread read with ⟨unread, exits⟩
    cases decoded : python.decode stdin with
    | none =>
        simp only [main, decoded] at exits
        injection exits with _ raised
        cases raised
    | some raw =>
        cases parsed : parseStatus python raw with
        | ok actual =>
            rcases main_read domains nameserver decoded parsed with
              ⟨found, exit⟩
            rw [exits] at exit
            injection exit with _ status
            injection status with status
            split at status <;> cases status
        | error raised =>
            have refused : Refused python stdin := by
              apply refused_of_parseStatus decoded
              rw [parsed]
              cases raised
              all_goals first
                | rfl
                | (simp only [main, decoded, parsed] at exits
                   injection exits with _ raised
                   cases raised)
            refine ⟨refused, fun handed => ?_⟩
            exact not_truthful_of_refused refused handed truthful
  · rintro (⟨raw, data, decoded, loaded, routes⟩ | ⟨refused, kept⟩)
    · rcases parseStatus_read loaded routes with ⟨actual, parsed⟩
      rcases main_read domains nameserver decoded parsed with
        ⟨verdict, ran⟩
      refine ⟨⟨verdict, 1, _, ran, ?_⟩, fun unread => ?_, fun _ _ _ _ _ => ⟨verdict, by rw [ran]⟩⟩
      · split <;> decide
      · exact absurd ⟨raw, data, decoded, loaded, routes⟩ unread
    · have ran := main_refused domains nameserver refused
      refine ⟨⟨_, _, _, ran, by decide⟩, fun _ => ⟨_, ran⟩, ?_⟩
      intro run same textfile published publishes
      have nothing : captured run.status = [] := by
        by_contra long
        exact kept (same ▸ handed_of_captured long)
      rw [check] at published
      simp only [nothing, if_true] at published
      split at published
      · injection published with text
        exact absurd (text ▸ publishes) (not_publishes_nothing run.now)
      · cases published

theorem three_le_thousand : 3 ≤ 1000 := by decide

/-- A Python for ASCII input. -/
def asciiPython : Interpreter where
  letters := asciiLowering
  decode := fun bytes => some (.ofList (bytes.map fun byte => .ofNat byte.toNat))
  depth := 1000
  deep := three_le_thousand
  repr := fun _ => ""

def notJson : List UInt8 := [123, 110, 111, 116, 32, 106, 115, 111, 110]

theorem unreadable_published :
    ¬∀ (python : Interpreter) (domains nameserver : String) (stdin : List UInt8),
      Truthful python domains nameserver stdin := by
  intro truthful
  have refused : Refused asciiPython notJson := ⟨_, rfl, .inl rfl⟩
  have handed : Handed notJson := by decide
  exact not_truthful_of_refused refused handed
    (truthful asciiPython "example.internal" "100.64.0.10" notJson)

end Homelab.SplitDns
