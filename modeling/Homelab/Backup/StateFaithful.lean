import Homelab.Backup.StateJson

/-! # What the control panel shows of a run

Where every recipe reported and every error reads as JSON as it stands, the state file says
what the run did.
-/

namespace Homelab.Backup

open Text Python

/-! ## What the state is to be -/

def field (name : String) : Value → Option Value
  | .dict fields => fields.lookup name
  | _ => none

/-- The status of an entry is `ok`. -/
def isOk (entry : Value) : Bool := (field "status" entry).any (Value.isText "ok")

def bytesOf (entry : Value) : Int :=
  match field "bytes" entry with
  | some (.int bytes) => bytes
  | _ => 0

def Run.countedOk (run : Run) : Nat := run.results.countP Backup.countedOk

/-- The state has one entry for each service, and its numbers agree with the entries. -/
structure Run.Shown (run : Run) (state : Value) (entries : List (String × Value)) : Prop where
  services : field "per_service" state = some (.dict entries)
  each : (entries.map Prod.fst).Perm (run.services.map fun service => .ofList service.name)
  numbers : ∃ failed : Int, field "ok" state = some (.int run.countedOk) ∧
    field "failed" state = some (.int failed) ∧ run.countedOk + failed = run.services.length
  counted : ∀ service ∈ run.services, ∀ entry, (.ofList service.name, entry) ∈ entries →
    (Backup.countedOk service.result = true ↔ isOk entry = true)
  totalBytes : field "total_bytes" state =
    some (.int (((entries.map Prod.snd).filter isOk).map bytesOf).sum)

def recentLog (panel : Panel) : Option Line → Except Raised (List Value)
  | none => .ok []
  | some file => readLog panel file

/-- The state file is JSON, it shows the run, and the control panel returns what it shows. -/
def Run.Faithful (panel : Panel) (run : Run) : Prop :=
  ∃ text state entries, Utf8.opened run.stateFile = some text ∧
    Json.loads panel.depth (.ofList text) = .ok state ∧ run.Shown state entries ∧
    ∀ logFile, getBackupStatus panel (some run.stateFile) logFile =
      (recentLog panel logFile).map (Status.mk state)

/-! ## Runs whose services all reported -/

def Service.opened (service : Service) : Option Ending := service.ending.bind Ending.opened

def Ending.quotable : Ending → Bool
  | .ok _ _ _ => true
  | .fail _ error => Json.quotable error

/-- The service reported, and its error reads as JSON as it stands. -/
def Service.Told (service : Service) : Prop :=
  ∃ ending, service.opened = some ending ∧ ending.quotable = true

instance (service : Service) : Decidable service.Told :=
  decidable_of_iff (service.opened.any Ending.quotable = true) (by
    rw [Service.Told]
    cases service.opened <;> simp)

def Service.size (service : Service) : Option Int :=
  match service.ending with
  | some (.ok bytes _ _) => some bytes
  | _ => none

def Run.sizes (run : Run) : List Int := run.services.filterMap Service.size

/-- The arithmetic of the shell has bits enough. -/
structure Run.Small (run : Run) : Prop where
  ok : run.sizes.length < 2 ^ 63
  failed : run.services.length < run.sizes.length + 2 ^ 63
  totalBytes : run.sizes.sum < 2 ^ 63

structure Run.Sound (run : Run) : Prop where
  told : ∀ service ∈ run.services, service.Told
  small : run.Small

/-! ## One service -/

theorem Service.Told.ending {service : Service} (told : service.Told) :
    ∃ raw own, service.ending = some raw ∧ raw.opened = some own ∧ own.quotable = true := by
  rcases told with ⟨own, opened, quotable⟩
  rcases Option.bind_eq_some_iff.mp opened with ⟨raw, reported, read⟩
  exact ⟨raw, own, reported, read, quotable⟩

theorem sealed_of_quotable {raw own : Ending} (opened : raw.opened = some own)
    (quotable : own.quotable = true) : raw.Sealed := by
  cases raw with
  | ok bytes durationMs entries => trivial
  | fail durationMs error =>
      rcases Option.map_eq_some_iff.mp opened with ⟨text, read, same⟩
      rw [← same] at quotable
      rcases Json.quotes_of_quotable quotable with ⟨_, _, inside⟩
      exact Json.inside_of_opened read inside

/-- In a line of its own the name of the service is not found a second time. -/
theorem last_rest {raw : Ending} (sealed_ : raw.Sealed) : serviceGroup.last raw.rest = none :=
  rightmost_rest service_keyed (by decide) (by decide) sealed_

section

variable {service : Service} (word : IsWord service.name) {raw : Ending}
  (reported : service.ending = some raw)

include word reported

theorem result_told :
    service.result = Report.text ⟨service.name, service.method, raw⟩ := by
  rw [Service.result_eq word.kept, reported]
  rfl

theorem result_kept : Kept service.result := by
  rw [result_told word reported]
  exact Report.kept _ word.kept (Service.ending_printable reported)

theorem read_name (nothing : serviceGroup.last raw.rest = none) :
    serviceGroup.read service.result = service.name := by
  have kept := result_kept word reported
  rw [result_told word reported] at kept ⊢
  refine Group.read_line kept.2 (found_service ?_ word.1 nothing) word.kept
  exact word.not_mem (by decide)

theorem countedOk_result (sealed_ : raw.Sealed) :
    countedOk service.result = service.size.isSome := by
  have named : '"' ∉ service.name := word.not_mem (by decide)
  have counted : countedOk (Report.text ⟨service.name, service.method, raw⟩) = true ↔
      ∃ bytes durationMs entries, raw = .ok bytes durationMs entries :=
    countedOk_text named sealed_
  rw [← result_told word reported] at counted
  rw [Bool.eq_iff_iff, counted, Service.size, reported]
  cases raw with
  | ok bytes durationMs entries => simp
  | fail durationMs error => simp

end

theorem read_bytes {service : Service} (word : IsWord service.name) {bytes : Int}
    (size : service.size = some bytes) :
    bytesGroup.read service.result = decimal bytes ∧ 0 ≤ bytes ∧ InWord bytes := by
  cases reported : service.ending with
  | none =>
      rw [Service.size, reported] at size
      cases size
  | some raw =>
      rw [Service.size, reported] at size
      cases raw with
      | ok own durationMs entries =>
          cases size
          have printable := Service.ending_printable reported
          have kept := result_kept word reported
          rw [result_told word reported] at kept ⊢
          exact ⟨Group.read_line kept.2 (found_bytes printable.1 rfl) (kept_decimal _),
            printable.1, printable.2.1⟩
      | fail durationMs error => cases size

/-- `$((…))` takes what `%d` printed. -/
theorem number_decimal {value : Int} (positive : 0 ≤ value) :
    number (decimal value) = some value := by
  rcases Int.eq_ofNat_of_zero_le positive with ⟨size, rfl⟩
  have digits : (Nat.toDigits 10 size).all Char.isDigit = true := by
    rw [List.all_eq_true]
    exact fun char member => Json.toDigits_isDigit size member
  rw [decimal_natCast]
  unfold number
  rw [if_pos digits]
  by_cases zero : size = 0
  · subst zero
    rfl
  · rcases Json.toDigits_head (Nat.pos_of_ne_zero zero) with ⟨first, more, equal, nonzero⟩
    rw [equal]
    split
    · next same => exact absurd (List.cons.inj same).1 nonzero
    · rw [← equal, Json.natOf_toDigits]

/-! ## The counts -/

theorem wrapped_add (first second : Int) :
    wrapped (wrapped first + second) = wrapped (first + second) := Int.bmod_add_bmod ..

theorem wrapped_self {value : Int} (inWord : InWord value) : wrapped value = value := by
  rw [InWord] at inWord
  rw [wrapped, Int.bmod_eq_of_le] <;> omega

theorem wrapped_below {value : Int} (positive : 0 ≤ value) (small : value < 2 ^ 63) :
    wrapped value = value :=
  wrapped_self ⟨Int.le_trans (by decide) positive, small⟩

def Counts.of (ok failed totalBytes : Int) : Counts :=
  ⟨wrapped ok, wrapped failed, wrapped totalBytes⟩

theorem add_of {service : Service} (word : IsWord service.name) (told : service.Told)
    (ok failed totalBytes : Int) :
    (Counts.of ok failed totalBytes).add service.result =
      match service.size with
      | some bytes => .of (ok + 1) failed (totalBytes + bytes)
      | none => .of ok (failed + 1) totalBytes := by
  rcases told.ending with ⟨raw, own, reported, opened, quotable⟩
  have counted := countedOk_result word reported (sealed_of_quotable opened quotable)
  rw [Counts.add, counted]
  cases size : service.size with
  | none => simp [Counts.of, wrapped_add]
  | some bytes =>
      rcases read_bytes word size with ⟨read, positive, _⟩
      have visible : decimal bytes ≠ [] := by
        intro empty
        have value := number_decimal positive
        rw [empty] at value
        have zero : bytes = 0 := (Option.some.inj value).symm
        rw [zero] at empty
        exact absurd empty (by decide)
      simp only [Option.isSome_some, if_true, read, if_neg visible, number_decimal positive]
      simp [Counts.of, wrapped_add]

theorem foldl_counts {services : List Service} (word : ∀ service ∈ services, IsWord service.name)
    (told : ∀ service ∈ services, service.Told) (ok failed totalBytes : Int) :
    (services.map Service.result).foldl Counts.add (.of ok failed totalBytes) =
      .of (ok + (services.filterMap Service.size).length)
        (failed + (services.length - (services.filterMap Service.size).length))
        (totalBytes + (services.filterMap Service.size).sum) := by
  induction services generalizing ok failed totalBytes with
  | nil => simp
  | cons service rest induction =>
      have later := induction (fun other member => word other (List.mem_cons_of_mem _ member))
        fun other member => told other (List.mem_cons_of_mem _ member)
      rw [List.map_cons, List.foldl_cons,
        add_of (word service List.mem_cons_self) (told service List.mem_cons_self)]
      cases size : service.size with
      | some bytes =>
          simp only [List.filterMap_cons_some size, later, List.length_cons, List.sum_cons]
          congr 1 <;> omega
      | none =>
          simp only [List.filterMap_cons_none size, later, List.length_cons]
          congr 1
          omega

theorem counts_eq {run : Run} (named : run.Named)
    (told : ∀ service ∈ run.services, service.Told) :
    run.counts = .of run.sizes.length (run.services.length - run.sizes.length) run.sizes.sum := by
  have whole := foldl_counts named.word told 0 0 0
  rw [Int.zero_add, Int.zero_add, Int.zero_add] at whole
  exact whole

theorem sizes_nonneg {run : Run} (named : run.Named) : 0 ≤ run.sizes.sum := by
  refine List.sum_nonneg fun bytes member => ?_
  rcases List.mem_filterMap.mp member with ⟨service, inside, size⟩
  exact (read_bytes (named.word service inside) size).2.1

theorem Run.countedOk_eq {run : Run} (named : run.Named)
    (told : ∀ service ∈ run.services, service.Told) : run.countedOk = run.sizes.length := by
  have each : ∀ services : List Service, (∀ service ∈ services, IsWord service.name) →
      (∀ service ∈ services, service.Told) →
      (services.map Service.result).countP Backup.countedOk =
        (services.filterMap Service.size).length := by
    intro services word told
    induction services with
    | nil => rfl
    | cons service rest induction =>
        have later := induction (fun other member => word other (List.mem_cons_of_mem _ member))
          fun other member => told other (List.mem_cons_of_mem _ member)
        rcases (told service List.mem_cons_self).ending with ⟨raw, own, reported, opened, quotable⟩
        have counted := countedOk_result (word service List.mem_cons_self) reported
          (sealed_of_quotable opened quotable)
        rw [List.map_cons, List.countP_cons, later, counted]
        cases size : service.size with
        | some bytes => simp [List.filterMap_cons_some size]
        | none => simp [List.filterMap_cons_none size]
  exact each run.services named.word told

/-! ## The entries -/

def Ending.error : Ending → String
  | .ok _ _ _ => ""
  | .fail _ error => .ofList (Json.unquoted error)

def Service.item (service : Service) : Item :=
  match service.opened with
  | none => ⟨service.name, [], .none⟩
  | some ending =>
      let report : Report := ⟨service.name, service.method, ending⟩
      ⟨service.name, report.text, .dict (report.object ending.error)⟩

theorem item_name (service : Service) : service.item.name = service.name := by
  rw [Service.item]
  split <;> rfl

theorem item_opened {service : Service} {ending : Ending} (opened : service.opened = some ending) :
    service.item = ⟨service.name, Report.text ⟨service.name, service.method, ending⟩,
      .dict (Report.object ending.error ⟨service.name, service.method, ending⟩)⟩ := by
  rw [Service.item, opened]

theorem numbers_opened {raw own : Ending} (printable : raw.Printable)
    (opened : raw.opened = some own) : own.Numbers := by
  cases raw with
  | ok bytes durationMs entries =>
      cases opened
      exact printable.2
  | fail durationMs error =>
      rcases Option.map_eq_some_iff.mp opened with ⟨text, _, rfl⟩
      exact printable.1

theorem size_opened {service : Service} {ending : Ending} (opened : service.opened = some ending) :
    service.size = match ending with
      | .ok bytes _ _ => some bytes
      | .fail _ _ => none := by
  rcases Option.bind_eq_some_iff.mp opened with ⟨raw, reported, read⟩
  rw [Service.size, reported]
  cases raw with
  | ok bytes durationMs entries =>
      cases read
      rfl
  | fail durationMs error =>
      rcases Option.map_eq_some_iff.mp read with ⟨text, _, rfl⟩
      rfl

/-- The entry is as good as the service, and has its size. -/
theorem isOk_item {service : Service} (told : service.Told) :
    isOk service.item.value = service.size.isSome ∧
      ∀ bytes, service.size = some bytes → bytesOf service.item.value = bytes := by
  rcases told with ⟨ending, opened, _⟩
  rw [item_opened opened, size_opened opened]
  cases ending with
  | ok bytes durationMs entries =>
      refine ⟨rfl, fun own same => ?_⟩
      cases same
      rfl
  | fail durationMs error => exact ⟨rfl, fun own same => by cases same⟩

theorem reads_item {service : Service} (word : IsWord service.name) (told : service.Told)
    (depth : Nat) : Json.Reads (depth + 1) service.item.text service.item.value := by
  rcases told with ⟨ending, opened, quotable⟩
  rcases Option.bind_eq_some_iff.mp opened with ⟨raw, reported, read⟩
  rw [item_opened opened]
  refine reads_report depth word (numbers_opened (Service.ending_printable reported) read) ?_
  intro durationMs error same
  simp only at same
  rw [same] at quotable ⊢
  rw [Ending.error, String.toList_ofList]
  exact Json.quotes_unquoted quotable

theorem entry_eq (line : Line) :
    entry line = ('"' :: (serviceGroup.read line ++ ['"', ':'])) ++ line := by
  simp [entry]

theorem opened_entry {service : Service} (word : IsWord service.name) (told : service.Told) :
    Utf8.opened (entry service.result) = some service.item.member := by
  rcases told.ending with ⟨raw, own, reported, read, quotable⟩
  have opened : service.opened = some own := by
    rw [Service.opened, reported, Option.bind_some, read]
  have clear : Clear ('"' :: (service.name ++ ['"', ':'])) :=
    Clear.cons (by decide) (word.clear.append (by decide))
  have nothing := last_rest (sealed_of_quotable read quotable)
  rw [entry_eq, read_name word reported nothing, clear.before, result_told word reported,
    opened_text word, read, item_opened opened]
  simp [Item.member, member]

/-! ## The file -/

theorem Stamp.clear (stamp : Stamp) : Clear stamp.text := by
  intro char member
  rcases stamp.plain char member with ⟨plain, small⟩
  refine ⟨by omega, ?_⟩
  rintro rfl
  exact absurd plain.2.2 (by decide)

theorem clear_status (run : Run) : Clear run.status.toList := by
  rw [Run.status]
  split <;> decide

theorem clear_header (run : Run) : Clear run.header := by
  unfold Run.header
  have ended := run.ended.clear
  have started := run.started.clear
  have status := clear_status run
  rw [Run.status] at status
  refine Clear.append (Clear.append (Clear.append (Clear.append (Clear.append (Clear.append
    (Clear.append (Clear.append (Clear.append (Clear.append (Clear.append (Clear.append
    (Clear.append (Clear.append (Clear.append (Clear.append (Clear.append (Clear.append ?_
    ended) ?_) started) ?_) status) ?_) (clear_decimal _)) ?_) (clear_decimal _)) ?_)
    (clear_decimal _)) ?_) (clear_decimal _)) ?_) (clear_decimal _)) ?_) (clear_decimal _)) ?_
  all_goals decide

theorem stateFile_eq (run : Run) :
    run.stateFile = run.header ++ '\x7b' ::
      ([','].intercalate (run.services.map fun service => entry service.result) ++
        '\x7d' :: "\n\x7d\n".toList) := by
  simp [Run.stateFile, perService, Run.results, List.map_map, Function.comp_def]

theorem opened_file {run : Run} (named : run.Named)
    (told : ∀ service ∈ run.services, service.Told) :
    Utf8.opened run.stateFile = some (run.header ++ ('\x7b' ::
      ([','].intercalate ((run.services.map Service.item).map Item.member) ++ ['\x7d'])) ++
        "\n\x7d\n".toList) := by
  have ends : Utf8.opened ('\x7d' :: "\n\x7d\n".toList) = some ('\x7d' :: "\n\x7d\n".toList) :=
    Clear.opened (by decide)
  have between : ','.toNat < 128 ∧ ',' ≠ '\n' ∧ ',' ≠ '\r' := by decide
  have after : '\x7d'.toNat < 128 ∧ '\x7d' ≠ '\n' := by decide
  have map := Utf8.opened_intercalate between after
    (fun service inside => opened_entry (named.word service inside) (told service inside))
    "\n\x7d\n".toList
  rw [stateFile_eq, (clear_header run).before, Utf8.opened_mark (by decide) (by decide), map, ends]
  simp [List.map_map, Function.comp_def]

/-! ## Faithful runs -/

def Run.entries (run : Run) : List (String × Value) :=
  (run.services.map Service.item).map Item.field

def Run.state (run : Run) : Value := .dict (run.object run.entries)

theorem loads_state (panel : Panel) {run : Run} (named : run.Named)
    (told : ∀ service ∈ run.services, service.Told) :
    ∃ text, Utf8.opened run.stateFile = some text ∧
      Json.loads panel.depth (.ofList text) = .ok run.state := by
  rcases Nat.exists_eq_add_of_le panel.deep with ⟨depth, deep⟩
  have each : ∀ item ∈ run.services.map Service.item,
      IsWord item.name ∧ Json.Reads (depth + 1) item.text item.value := by
    intro item member
    rcases List.mem_map.mp member with ⟨service, inside, rfl⟩
    rw [item_name]
    exact ⟨named.word service inside,
      reads_item (named.word service inside) (told service inside) depth⟩
  have names : ((run.services.map Service.item).map Item.name).Nodup := by
    have same : Item.name ∘ Service.item = Service.name := funext item_name
    rw [List.map_map, same]
    exact named.distinct
  have loads := loads_file run (reads_map each names)
  rw [show panel.depth = depth + 1 + 1 + 1 by omega]
  exact ⟨_, opened_file named told, loads⟩

theorem total_items {services : List Service} (told : ∀ service ∈ services, service.Told) :
    ((((services.map Service.item).map Item.field).map Prod.snd).filter isOk).map bytesOf =
      services.filterMap Service.size := by
  induction services with
  | nil => rfl
  | cons service rest induction =>
      have later := induction fun other member => told other (List.mem_cons_of_mem _ member)
      rcases isOk_item (told service List.mem_cons_self) with ⟨good, bytes⟩
      simp only [List.map_cons, Item.field, List.filter_cons, good]
      simp only [List.map_map] at later ⊢
      cases size : service.size with
      | some own =>
          simp only [Option.isSome_some, if_true, List.map_cons, bytes own size,
            List.filterMap_cons_some size, later]
      | none =>
          simp only [Option.isSome_none, Bool.false_eq_true, if_false,
            List.filterMap_cons_none size, later]

theorem shown_state {run : Run} (named : run.Named) (sound : run.Sound) :
    run.Shown run.state run.entries where
  services := by simp [Run.state, field, Run.object, List.lookup_cons]
  each := by
    have same : run.entries.map Prod.fst =
        run.services.map fun service => .ofList service.name := by
      simp [Run.entries, Item.field, List.map_map, Function.comp_def, item_name]
    rw [same]
  numbers := by
    have counts := counts_eq named sound.told
    have small := sound.small
    have length : run.sizes.length ≤ run.services.length := List.length_filterMap_le _ _
    refine ⟨run.services.length - run.sizes.length, ?_, ?_, ?_⟩
    · have ok : run.counts.ok = run.countedOk := by
        rw [counts, Run.countedOk_eq named sound.told, Counts.of]
        have short := small.ok
        dsimp only
        exact wrapped_below (by omega) (by omega)
      simp [Run.state, field, Run.object, List.lookup_cons, ok]
    · have failed : run.counts.failed = run.services.length - run.sizes.length := by
        rw [counts, Counts.of]
        have short := small.failed
        exact wrapped_below (by omega) (by omega)
      simp [Run.state, field, Run.object, List.lookup_cons, failed]
    · rw [Run.countedOk_eq named sound.told]
      omega
  counted := by
    intro service inside entry member
    rcases List.mem_map.mp member with ⟨item, listed, same⟩
    rcases List.mem_map.mp listed with ⟨other, otherInside, rfl⟩
    have names : other.name = service.name := by
      have first := congrArg (String.toList ∘ Prod.fst) same
      simpa [Item.field, item_name] using first
    have equal := List.inj_on_of_nodup_map named.distinct otherInside inside names
    subst equal
    rcases (sound.told other inside).ending with ⟨raw, own, reported, opened, quotable⟩
    have value : other.item.value = entry := congrArg Prod.snd same
    rw [countedOk_result (named.word other inside) reported (sealed_of_quotable opened quotable),
      ← (isOk_item (sound.told other inside)).1, value]
  totalBytes := by
    have total : run.counts.totalBytes = run.sizes.sum := by
      rw [counts_eq named sound.told, Counts.of]
      exact wrapped_below (sizes_nonneg named) sound.small.totalBytes
    rw [Run.entries, total_items sound.told]
    simp [Run.state, field, Run.object, List.lookup_cons, total, Run.sizes]

/-- What the panel returns when it can read the state. -/
theorem returns_state (panel : Panel) {file text : Line} {state : Value}
    (opened : Utf8.opened file = some text)
    (loads : Json.loads panel.depth (.ofList text) = .ok state) (logFile : Option Line) :
    getBackupStatus panel (some file) logFile =
      (recentLog panel logFile).map (Status.mk state) := by
  have read : readState panel file = .ok state := by
    rw [readState, opened]
    simp only
    rw [loads]
  rw [getBackupStatus]
  simp only [read, ok_bind]
  cases logFile with
  | none => rfl
  | some file =>
      simp only [recentLog]
      cases readLog panel file <;> rfl

theorem faithful_of_sound (panel : Panel) {run : Run} (named : run.Named) (sound : run.Sound) :
    run.Faithful panel := by
  rcases loads_state panel named sound.told with ⟨text, opened, loads⟩
  exact ⟨text, run.state, run.entries, opened, loads, shown_state named sound,
    returns_state panel opened loads⟩

end Homelab.Backup
