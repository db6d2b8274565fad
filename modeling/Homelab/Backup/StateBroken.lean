import Homelab.Backup.StateFaithful

/-! # Where the state file is no JSON

A service without its status line, or with an error that its quotes do not hold, leaves the
control panel without a state.
-/

namespace Homelab.Backup

open Text Python

/-! ## What the panel gets to read -/

/-- The error does not look as if its line went on after it: it ends its own quotes only where
no object goes on, and `sed` finds no service in it. -/
def Ending.Tame : Ending → Prop
  | .ok _ _ _ => True
  | .fail _ error =>
      (∀ text ∈ Utf8.opened error, Json.escapes text = false) ∧
        serviceGroup.last ('"' :: (error ++ ['"', '\x7d'])) = none

instance (ending : Ending) : Decidable ending.Tame :=
  match ending with
  | .ok _ _ _ => inferInstanceAs (Decidable True)
  | .fail _ _ => inferInstanceAs (Decidable (_ ∧ _))

def Run.Tame (run : Run) : Prop :=
  ∀ service ∈ run.services, ∀ ending ∈ service.ending, ending.Tame

instance (run : Run) : Decidable run.Tame :=
  inferInstanceAs (Decidable (∀ service ∈ run.services, ∀ ending ∈ service.ending, ending.Tame))

/-- The name that `sed` finds in the result. -/
def Service.key (service : Service) : Line :=
  match service.ending with
  | some _ => service.name
  | none => []

def Service.part (service : Service) : Line := member service.key service.item.text []

def Service.Opens (service : Service) : Prop :=
  service.ending = none ∨ ∃ ending, service.opened = some ending

theorem read_key {service : Service} (word : IsWord service.name)
    (tame : ∀ ending, service.ending = some ending → ending.Tame) :
    serviceGroup.read service.result = service.key := by
  cases reported : service.ending with
  | none =>
      rw [Service.result_eq word.kept, Service.key, reported]
      rfl
  | some raw =>
      have nothing : serviceGroup.last raw.rest = none := by
        cases raw with
        | ok bytes durationMs entries => exact last_rest trivial
        | fail durationMs error =>
            have front := rightmost_failRest service_keyed (by decide) (by decide) (by decide)
              durationMs error (by decide)
            exact front.trans (tame _ reported).2
      rw [read_name word reported nothing, Service.key, reported]

theorem clear_key {service : Service} (word : IsWord service.name) : Clear service.key := by
  rw [Service.key]
  split
  · exact word.clear
  · decide

theorem opened_part {service : Service} (word : IsWord service.name)
    (tame : ∀ ending, service.ending = some ending → ending.Tame) (opens : service.Opens) :
    Utf8.opened (entry service.result) = some service.part := by
  have clear : Clear ('"' :: (service.key ++ ['"', ':'])) :=
    Clear.cons (by decide) ((clear_key word).append (by decide))
  rw [entry_eq, read_key word tame, clear.before]
  rcases opens with died | ⟨own, opened⟩
  · have nothing : service.opened = none := by rw [Service.opened, died, Option.bind_none]
    have empty : service.item.text = [] := by rw [Service.item, nothing]
    rw [Service.result_eq word.kept, died, Service.part, empty]
    simp [Service.text, member, Utf8.opened, Utf8.decode, Utf8.run, Utf8.universal]
  · rcases Option.bind_eq_some_iff.mp opened with ⟨raw, reported, read⟩
    rw [result_told word reported, opened_text word, read, Service.part, item_opened opened]
    simp [member]

theorem opened_none {service : Service} (word : IsWord service.name)
    (tame : ∀ ending, service.ending = some ending → ending.Tame) (closed : ¬service.Opens) :
    Utf8.opened (entry service.result) = none := by
  have clear : Clear ('"' :: (service.key ++ ['"', ':'])) :=
    Clear.cons (by decide) ((clear_key word).append (by decide))
  rw [entry_eq, read_key word tame, clear.before]
  cases reported : service.ending with
  | none => exact absurd (.inl reported) closed
  | some raw =>
      rw [result_told word reported, opened_text word]
      cases read : raw.opened with
      | none => rfl
      | some own =>
          have opened : service.opened = some own := by
            rw [Service.opened, reported, Option.bind_some, read]
          exact absurd (.inr ⟨own, opened⟩) closed

/-- The file as it is read, if it is text at all. -/
theorem opened_parts {run : Run} (named : run.Named) (tame : run.Tame) {text : Line}
    (opened : Utf8.opened run.stateFile = some text) :
    (∀ service ∈ run.services, service.Opens) ∧
      text = run.header ++ ('\x7b' :: ([','].intercalate (run.services.map Service.part) ++
        '\x7d' :: "\n\x7d\n".toList)) := by
  rw [stateFile_eq, (clear_header run).before, Utf8.opened_mark (by decide) (by decide)] at opened
  have ends : Utf8.opened ('\x7d' :: "\n\x7d\n".toList) = some ('\x7d' :: "\n\x7d\n".toList) :=
    Clear.opened (by decide)
  have between : ','.toNat < 128 ∧ ',' ≠ '\n' ∧ ',' ≠ '\r' := by decide
  have after : '\x7d'.toNat < 128 ∧ '\x7d' ≠ '\n' := by decide
  generalize "\n\x7d\n".toList = tail at opened ends ⊢
  by_cases opens : ∀ service ∈ run.services, service.Opens
  · have map := Utf8.opened_intercalate between after
      (fun service inside => opened_part (named.word service inside) (tame service inside)
        (opens service inside)) tail
    rw [map, ends] at opened
    exact ⟨opens, (Option.some.inj opened).symm⟩
  · simp only [not_forall] at opens
    rcases opens with ⟨service, inside, closed⟩
    have unread : ∃ service ∈ run.services,
        Utf8.opened ((fun service => entry service.result) service) = none := by
      refine ⟨service, inside, ?_⟩
      exact opened_none (named.word service inside) (tame service inside) closed
    rw [Utf8.opened_intercalate_none between after unread] at opened
    cases opened

/-! ## A status line with a broken error -/

theorem stuck_member {depth : Nat} (name : Line) {chars text : Line} {value : Value}
    (stuck : Json.Stuck depth ('"' :: text)) (plain : ∀ char ∈ name, Json.Plain char)
    (reads : Json.Reads depth chars value) :
    Json.Stuck depth (member name chars (',' :: '"' :: text)) := by
  have more := stuck.more (Json.quotes_plain plain) Json.no_spaces reads Json.no_spaces
  simpa [member] using more

/-- What comes after a status line in the map: the closing brace, or the next name. -/
inductive After : Line → Prop
  | closing : After ('\x7d' :: "\n\x7d\n".toList)
  | next {first : Char} (rest : Line) : Json.isSpace first = false → first ≠ ',' →
      first ≠ '\x7d' → After (',' :: '"' :: first :: rest)

theorem scanString_mark {char : Char} (plain : Json.Plain char) (rest : Line) :
    Json.scanString none (char :: rest) =
      (Json.scanString none rest).map fun (text, rest) => (char :: text, rest) := by
  rw [Json.scanString_visible plain.1 plain.2.1, if_neg (by have := plain.2.2; omega)]
  rfl

theorem After.spoilt {after : Line} (shape : After after) :
    Json.Spoilt (Json.scanString none ('\x7d' :: after)) := by
  cases shape with
  | closing =>
      have nothing : Json.scanString none ('\x7d' :: '\x7d' :: "\n\x7d\n".toList) = none := by
        decide
      rw [nothing]
      intro text rest impossible
      cases impossible
  | @next first rest visible comma brace =>
      rw [scanString_mark (by decide), scanString_mark (by decide), Json.scanString]
      intro text own equal mark more skipped
      cases equal
      rw [Json.skip_visible first visible] at skipped
      rcases List.cons.inj skipped with ⟨rfl, _⟩
      exact ⟨comma, brace⟩

/-- A status line whose error its quotes do not hold. -/
theorem broken_text {depth : Nat} {name error : Line} (word : IsWord name) (method : Method)
    {durationMs : Int} (inWord : InWord durationMs) (wrong : Json.quotable error = false)
    (stays : Json.escapes error = false) {after : Line} (shape : After after) :
    Json.Broken (depth + 1)
      (Report.text ⟨name, method, .fail durationMs error⟩ ++ after) := by
  have spoilt := Json.spoilt wrong stays shape.spoilt
  have own : ∀ char ∈ "error".toList, Json.Plain char := by decide
  have told : Json.Stuck depth _ := spoilt.stuck (Json.quotes_plain own)
  have plainName : ∀ char ∈ method.name.toList, Json.Plain char := by
    cases method <;> decide
  have zero : Json.Reads depth (decimal 0) (.int 0) := reads_decimal depth (by decide)
  have fail : ∀ char ∈ "fail".toList, Json.Plain char := by decide
  have duration := stuck_member "duration_ms".toList told (by decide)
    (reads_decimal depth inWord)
  have bytes := stuck_member "bytes".toList duration (by decide) zero
  have status := stuck_member "status".toList bytes (by decide)
    (reads_quote depth (Json.quotes_plain fail))
  have methods := stuck_member "method".toList status (by decide)
    (reads_quote depth (Json.quotes_plain plainName))
  have service := stuck_member "service".toList methods (by decide)
    (reads_quote depth (Json.quotes_plain word.plain))
  have whole := service.broken Json.no_spaces
  have zeroText : decimal 0 = ['0'] := rfl
  have equal : Report.text ⟨name, method, .fail durationMs error⟩ ++ after =
      '\x7b' :: [] ++ member "service".toList (quote name) (',' :: member "method".toList
        (quote method.name.toList) (',' :: member "status".toList (quote "fail".toList) (',' ::
          member "bytes".toList (decimal 0) (',' :: member "duration_ms".toList
            (decimal durationMs) (',' :: '"' :: ("error".toList ++ '"' :: ':' :: '"' ::
              (error ++ '"' :: '\x7d' :: after))))))) := by
    simp [Report.text, Ending.rest, failRest, pieces, middle, member, quote, zeroText]
  rw [equal]
  exact whole

/-! ## A map with a service that was not told -/

theorem broken_mark {depth : Nat} {mark : Char} (rest : Line)
    (other : mark = ',' ∨ mark = '\x7d') : Json.Broken depth (mark :: rest) := by
  intro steps long
  rcases steps with _ | steps
  · exact absurd long (Nat.not_lt_zero _)
  · rcases other with rfl | rfl
    · exact ⟨_, rfl⟩
    · exact ⟨_, rfl⟩

theorem After.broken {after : Line} (shape : After after) (depth : Nat) :
    Json.Broken depth after ∧ Json.skip after = after := by
  cases shape with
  | closing => exact ⟨broken_mark _ (.inr rfl), Json.skip_visible _ (by decide) _⟩
  | next rest => exact ⟨broken_mark _ (.inl rfl), Json.skip_visible _ (by decide) _⟩

def following (rest : List Service) : Line :=
  match rest with
  | [] => '\x7d' :: "\n\x7d\n".toList
  | _ => ',' :: ([','].intercalate (rest.map Service.part) ++ '\x7d' :: "\n\x7d\n".toList)

theorem parts_cons (service : Service) (rest : List Service) :
    [','].intercalate ((service :: rest).map Service.part) ++ '\x7d' :: "\n\x7d\n".toList =
      '"' :: (service.key ++ '"' :: ':' :: (service.item.text ++ following rest)) := by
  cases rest with
  | nil => simp [following, Service.part, member]
  | cons next others =>
      simp only [following, List.map_cons, List.intercalate_cons_cons, Service.part, member]
      simp

theorem key_plain {service : Service} (word : IsWord service.name) :
    ∀ char ∈ service.key, Json.Plain char := by
  rw [Service.key]
  split
  · exact word.plain
  · simp

theorem following_shape {rest : List Service} (word : ∀ service ∈ rest, IsWord service.name) :
    After (following rest) := by
  cases rest with
  | nil => exact .closing
  | cons next others =>
      have shape : following (next :: others) = ',' :: '"' :: (next.key ++ '"' :: ':' ::
          (next.item.text ++ following others)) := by
        rw [← parts_cons]
        rfl
      rw [shape]
      cases key : next.key with
      | nil => exact .next _ (by decide) (by decide) (by decide)
      | cons first more =>
          have own : isWordChar first = true := by
            rw [Service.key] at key
            split at key
            · refine (word next List.mem_cons_self).2 first ?_
              rw [key]
              exact List.mem_cons_self
            · cases key
          refine .next _ ?_ (wordChar_ne own (by decide)) (wordChar_ne own (by decide))
          have space : first ≠ ' ' := wordChar_ne own (by decide)
          have tab : first ≠ '\t' := wordChar_ne own (by decide)
          have newline : first ≠ '\n' := wordChar_ne own (by decide)
          have returned : first ≠ '\r' := wordChar_ne own (by decide)
          simp [Json.isSpace, space, tab, newline, returned]

/-- A service that was told nothing of, or of an error that its quotes do not hold. -/
theorem not_told {service : Service} (opens : service.Opens) (untold : ¬service.Told) :
    service.ending = none ∨ ∃ durationMs error,
      service.opened = some (.fail durationMs error) ∧ Json.quotable error = false := by
  rcases opens with died | ⟨ending, opened⟩
  · exact .inl died
  · right
    cases ending with
    | ok bytes durationMs entries => exact absurd ⟨_, opened, rfl⟩ untold
    | fail durationMs error =>
        refine ⟨durationMs, error, opened, ?_⟩
        by_contra quotable
        exact untold ⟨_, opened, Bool.eq_true_of_not_eq_false quotable⟩

/-- What comes after the name of a service that was not told cannot be read. -/
theorem broken_service {service : Service} (word : IsWord service.name) (opens : service.Opens)
    (tame : ∀ ending, service.ending = some ending → ending.Tame) (untold : ¬service.Told)
    {after : Line} (shape : After after) (depth : Nat) :
    Json.Broken (depth + 1) (service.item.text ++ after) ∧
      Json.skip (service.item.text ++ after) = service.item.text ++ after := by
  rcases not_told opens untold with died | ⟨durationMs, error, opened, wrong⟩
  · have nothing : service.opened = none := by rw [Service.opened, died, Option.bind_none]
    have empty : service.item.text = [] := by rw [Service.item, nothing]
    rw [empty]
    exact shape.broken (depth + 1)
  · rcases Option.bind_eq_some_iff.mp opened with ⟨raw, reported, read⟩
    have numbers := numbers_opened (Service.ending_printable reported) read
    have stays : Json.escapes error = false := by
      cases raw with
      | ok bytes own entries => cases read
      | fail own bytes =>
          rcases Option.map_eq_some_iff.mp read with ⟨text, found, same⟩
          cases same
          exact (tame _ reported).1 _ found
    rw [item_opened opened]
    exact ⟨broken_text word service.method numbers wrong stays shape,
      Json.skip_visible '\x7b' (by decide) _⟩

theorem stuck_parts {services : List Service} (word : ∀ service ∈ services, IsWord service.name)
    (opens : ∀ service ∈ services, service.Opens)
    (tame : ∀ service ∈ services, ∀ ending, service.ending = some ending → ending.Tame)
    (untold : ∃ service ∈ services, ¬service.Told) (depth : Nat) :
    ∃ text, Json.Stuck (depth + 1) ('"' :: text) ∧
      [','].intercalate (services.map Service.part) ++ '\x7d' :: "\n\x7d\n".toList =
        '"' :: text := by
  induction services with
  | nil => simp at untold
  | cons service rest induction =>
      have wordRest := fun other member => word other (List.mem_cons_of_mem service member)
      have here := word service List.mem_cons_self
      refine ⟨_, ?_, parts_cons service rest⟩
      by_cases told : service.Told
      · have later : ∃ service ∈ rest, ¬service.Told := by
          rcases untold with ⟨other, member, nothing⟩
          rcases List.mem_cons.mp member with same | member
          · exact absurd (same ▸ told) nothing
          · exact ⟨other, member, nothing⟩
        rcases induction wordRest (fun other member => opens other (List.mem_cons_of_mem _ member))
          (fun other member => tame other (List.mem_cons_of_mem _ member)) later with
          ⟨text, stuck, spelled⟩
        have more := stuck_member service.key stuck (key_plain here) (reads_item here told depth)
        have next : following rest = ',' :: '"' :: text := by
          cases rest with
          | nil => simp at later
          | cons next others => rw [following, spelled]; simp
        rw [next]
        exact more
      · rcases broken_service here (opens service List.mem_cons_self)
          (tame service List.mem_cons_self) told (following_shape wordRest) depth with
          ⟨broken, visible⟩
        exact broken.stuck (Json.quotes_plain (key_plain here)) Json.no_spaces visible

/-! ## The whole file -/

theorem stuck_line {depth : Nat} (name : Line) {chars text : Line} {value : Value}
    (stuck : Json.Stuck depth ('"' :: text)) (plain : ∀ char ∈ name, Json.Plain char)
    (reads : Json.Reads depth chars value) :
    Json.Stuck depth (line name chars (',' :: '\n' :: ' ' :: ' ' :: '"' :: text)) := by
  have space : ∀ char ∈ [' '], Json.isSpace char = true := by decide
  have indent : ∀ char ∈ ['\n', ' ', ' '], Json.isSpace char = true := by decide
  have more := stuck.more (Json.quotes_plain plain) space reads indent
  simpa [line] using more

theorem stuck_lines {depth : Nat} (run : Run) {text : Line}
    (broken : Json.Broken depth ('\x7b' :: text)) :
    Json.Stuck depth (run.lines ('\x7b' :: text)) := by
  have ended := reads_quote depth (Json.quotes_plain fun char member =>
    (run.ended.plain char member).1)
  have started := reads_quote depth (Json.quotes_plain fun char member =>
    (run.started.plain char member).1)
  have status : ∀ char ∈ run.status.toList, Json.Plain char := by
    rw [Run.status]
    split <;> decide
  have fits := run.counts_inRange
  have space : ∀ char ∈ [' '], Json.isSpace char = true := by decide
  have name : ∀ char ∈ "per_service".toList, Json.Plain char := by decide
  have last : Json.Stuck depth (line "per_service".toList ('\x7b' :: text) []) := by
    have stuck := broken.stuck (Json.quotes_plain name) space (Json.skip_visible _ (by decide) _)
    simpa [line] using stuck
  exact stuck_line _ (stuck_line _ (stuck_line _ (stuck_line _ (stuck_line _ (stuck_line _
    (stuck_line _ (stuck_line _ (stuck_line _ last
    (by decide) (reads_decimal depth run.removed.inWord))
    (by decide) (reads_decimal depth run.freeGb.inWord))
    (by decide) (reads_decimal depth run.durationMs.inWord))
    (by decide) (reads_decimal depth fits.totalBytes))
    (by decide) (reads_decimal depth fits.failed))
    (by decide) (reads_decimal depth fits.ok))
    (by decide) (reads_quote depth (Json.quotes_plain status)))
    (by decide) started) (by decide) ended

/-- The lines before the map of the services do not help. -/
theorem loads_broken {depth : Nat} (run : Run) {text : Line}
    (broken : Json.Broken depth ('\x7b' :: text)) :
    ∃ raised, Json.loads (depth + 1) (.ofList (run.header ++ '\x7b' :: text)) = .error raised := by
  have indent : ∀ char ∈ ['\n', ' ', ' '], Json.isSpace char = true := by decide
  have stuck := stuck_lines run broken
  rw [lines_eq]
  exact (stuck.broken indent).loads (Json.skip_visible _ (by decide) _)

/-- A service that was not told leaves no state. -/
theorem told_of_loads (panel : Panel) {run : Run} (named : run.Named) (tame : run.Tame)
    {text : Line} {state : Value} (opened : Utf8.opened run.stateFile = some text)
    (loads : Json.loads panel.depth (.ofList text) = .ok state) :
    ∀ service ∈ run.services, service.Told := by
  by_contra untold
  simp only [not_forall] at untold
  rcases untold with ⟨service, inside, nothing⟩
  rcases opened_parts named tame opened with ⟨opens, spelled⟩
  rcases Nat.exists_eq_add_of_le panel.deep with ⟨depth, deep⟩
  rcases stuck_parts named.word opens tame ⟨service, inside, nothing⟩ depth with
    ⟨after, stuck, equal⟩
  have broken : Json.Broken (depth + 1 + 1) ('\x7b' :: '"' :: after) :=
    stuck.broken Json.no_spaces
  rcases loads_broken run broken with ⟨raised, failed⟩
  rw [spelled, equal, show panel.depth = depth + 1 + 1 + 1 by omega] at loads
  rw [failed] at loads
  cases loads

/-! ## When the state file is faithful -/

theorem small_of_shown {run : Run} (named : run.Named)
    (told : ∀ service ∈ run.services, service.Told) {entries : List (String × Value)}
    (shown : run.Shown run.state entries) : run.Small := by
  have counts := counts_eq named told
  rcases shown.numbers with ⟨failed, ok, failures, sum⟩
  have entriesEq : entries = run.entries := by
    have same := shown.services
    simp [Run.state, field, Run.object, List.lookup_cons] at same
    exact same.symm
  have okEq : wrapped run.sizes.length = run.sizes.length := by
    simp [Run.state, field, Run.object, List.lookup_cons, counts, Counts.of,
      Run.countedOk_eq named told] at ok
    exact ok
  have failedEq : wrapped (run.services.length - run.sizes.length) = failed := by
    simp [Run.state, field, Run.object, List.lookup_cons, counts, Counts.of] at failures
    exact failures
  have totalEq : wrapped run.sizes.sum = run.sizes.sum := by
    have total := shown.totalBytes
    rw [entriesEq, Run.entries, total_items told] at total
    simp [Run.state, field, Run.object, List.lookup_cons, counts, Counts.of] at total
    exact total
  have okWord := inWord_wrapped run.sizes.length
  have failedWord := inWord_wrapped (run.services.length - run.sizes.length)
  have totalWord := inWord_wrapped run.sizes.sum
  rw [okEq] at okWord
  rw [failedEq] at failedWord
  rw [totalEq] at totalWord
  rw [Run.countedOk_eq named told] at sum
  unfold InWord at okWord failedWord totalWord
  exact ⟨by omega, by omega, by omega⟩

/-- The state file is faithful where every service is told of in text that JSON reads as it
stands, and only there as long as no error looks as if its line went on after it. -/
theorem faithful_iff_sound (panel : Panel) (run : Run) (named : run.Named) :
    (run.Sound → run.Faithful panel) ∧ (run.Tame → run.Faithful panel → run.Sound) := by
  refine ⟨faithful_of_sound panel named, fun tame faithful => ?_⟩
  rcases faithful with ⟨text, state, entries, opened, loads, shown, _⟩
  have told := told_of_loads panel named tame opened loads
  rcases loads_state panel named told with ⟨own, same, read⟩
  rw [opened] at same
  cases same
  rw [loads] at read
  cases read
  exact ⟨told, small_of_shown named told shown⟩

def dumpError : Line := "pg_dump: error: FATAL:  role \"postgres\" does not exist ".toList

def stamp : Stamp where
  text := "2025-06-01T03:00:00Z".toList
  plain := by decide

/-- A good archive, and a dump. -/
def twoServices (dump : Outcome) : Run where
  services := [⟨"grafana".toList, .tar, .printed (.ok 2048 310 (some 12)) (by decide)⟩,
    ⟨"immich-db".toList, .pgDump, dump⟩]
  started := stamp
  ended := stamp
  durationMs := ⟨5200, by decide⟩
  freeGb := ⟨80, by decide⟩
  removed := ⟨0, by decide⟩

/-- A dump that failed with a quoted name, and one that ended early. -/
def quotedRun : Run := twoServices (.printed (.fail 95 dumpError) (by decide))

def diedRun : Run := twoServices .died

def timeoutRun : Run := twoServices (.printed (.fail 95 "timeout expired".toList) (by decide))

theorem twoServices_named (dump : Outcome) : (twoServices dump).Named where
  word := by
    simp only [twoServices, List.forall_mem_cons, List.not_mem_nil, false_implies, implies_true,
      and_true]
    decide
  distinct := by
    simp only [twoServices, List.map_cons, List.map_nil]
    decide

def interpreter : Panel := ⟨1000, 50, by decide⟩

/-- Without a text that reads as JSON nothing is faithful. -/
theorem faithful_fails : ¬quotedRun.Faithful interpreter ∧ ¬diedRun.Faithful interpreter := by
  constructor
  · intro faithful
    rcases faithful with ⟨text, state, entries, opened, loads, _⟩
    have told := told_of_loads interpreter (twoServices_named _) (by decide +kernel) opened loads
    revert told
    decide +kernel
  · intro faithful
    rcases faithful with ⟨text, state, entries, opened, loads, _⟩
    have told := told_of_loads interpreter (twoServices_named _) (by decide +kernel) opened loads
    revert told
    decide +kernel

theorem faithful_iff_sound_runs :
    timeoutRun.Faithful interpreter ∧ ¬quotedRun.Faithful interpreter := by
  refine ⟨(faithful_iff_sound interpreter timeoutRun (twoServices_named _)).1 ⟨?_, ?_⟩, ?_⟩
  · decide +kernel
  · exact ⟨by decide +kernel, by decide +kernel, by decide +kernel⟩
  · intro faithful
    have sound := (faithful_iff_sound interpreter quotedRun (twoServices_named _)).2
      (by decide +kernel) faithful
    have told := sound.told
    revert told
    decide +kernel

end Homelab.Backup
