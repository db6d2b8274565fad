import Homelab.RunnerMetrics.Numbers

/-! # What the Python collector prints

For a status that both collectors read, the Python text lists the same metrics as the Go text.
Labels come in the order of the dictionary, and a text that is too long counts nothing.
-/

namespace Homelab.RunnerMetrics

open Text GoText GoJson Exposition Python
open Json (putAll)

/-! ## Dictionaries -/

def dictOf (fields : Object) : List (String × Value) := putAll (fieldsOf fields) []

def dictKeys (fields : Object) : List Line := (dictOf fields).map fun field => field.1.toList

theorem fieldsOf_eq (fields : Object) :
    fieldsOf fields = fields.map fun field => (.ofList field.1, valueOf field.2) := by
  induction fields with
  | nil => rfl
  | cons field rest induction =>
      rcases field with ⟨name, tree⟩
      rw [fieldsOf, induction]
      rfl

theorem lookup_putAll (fields into : List (String × Value)) (name : String) :
    (putAll fields into).lookup name = (fields.reverse.lookup name).or (into.lookup name) := by
  induction fields generalizing into with
  | nil => rfl
  | cons field rest induction =>
      rcases field with ⟨own, value⟩
      have put : putAll ((own, value) :: rest) into = putAll rest (Table.put own value into) := rfl
      rw [put, induction, Table.lookup_put, List.reverse_cons, List.lookup_append, Option.or_assoc,
        Table.lookup_cons]
      split
      · rfl
      · rfl

theorem lookup_ofList (fields : Object) (name : Line) :
    (fields.map fun field => (String.ofList field.1, valueOf field.2)).lookup (.ofList name) =
      (fields.lookup name).map valueOf := by
  induction fields with
  | nil => rfl
  | cons field rest induction =>
      rcases field with ⟨own, tree⟩
      rw [List.map_cons, Table.lookup_cons, induction]
      by_cases same : name = own
      · simp [same]
      · have other : (name == own) = false := beq_eq_false_iff_ne.mpr same
        rw [if_neg fun equal => same (String.ofList_injective equal), List.lookup_cons, other]

/-- Both take the last of the fields with the same name. -/
theorem lookup_dictOf (fields : Object) (name : Line) :
    (dictOf fields).lookup (.ofList name) = (fields.get name).map valueOf := by
  rw [dictOf, lookup_putAll, fieldsOf_eq, ← List.map_reverse, lookup_ofList]
  exact Option.or_none

theorem nodup_putAll (fields : List (String × Value)) {into : List (String × Value)}
    (distinct : (into.map Prod.fst).Nodup) : ((putAll fields into).map Prod.fst).Nodup := by
  induction fields generalizing into with
  | nil => exact distinct
  | cons field rest induction =>
      exact induction (Dict.put_distinct field.1 field.2 ⟨into, distinct⟩)

theorem mem_keys_putAll (fields into : List (String × Value)) (name : String) :
    name ∈ (putAll fields into).map Prod.fst ↔
      name ∈ fields.map Prod.fst ∨ name ∈ into.map Prod.fst := by
  induction fields generalizing into with
  | nil => simp [putAll]
  | cons field rest induction =>
      have put : putAll (field :: rest) into = putAll rest (Table.put field.1 field.2 into) := rfl
      rw [put, induction, Table.keys_put, List.map_cons, List.mem_cons]
      split
      · next present =>
          constructor
          · rintro (later | own)
            · exact .inl (.inr later)
            · exact .inr own
          · rintro ((rfl | later) | own)
            · exact .inr present
            · exact .inl later
            · exact .inr own
      · rw [List.mem_append, List.mem_singleton]
        tauto

theorem dictKeys_eq (fields : Object) :
    dictKeys fields = ((dictOf fields).map Prod.fst).map String.toList := by
  rw [List.map_map]
  rfl

theorem distinct_dictOf (fields : Object) : ((dictOf fields).map Prod.fst).Nodup :=
  nodup_putAll (fieldsOf fields) (show (([] : List (String × Value)).map Prod.fst).Nodup from
    List.nodup_nil)

/-- The dictionary has the keys of the object. -/
theorem mem_dictKeys {fields : Object} {name : Line} :
    name ∈ dictKeys fields ↔ name ∈ keys fields := by
  have own : String.ofList name ∈ (dictOf fields).map Prod.fst ↔
      String.ofList name ∈ (fieldsOf fields).map Prod.fst := by
    rw [dictOf, mem_keys_putAll]
    simp
  rw [mem_keys, dictKeys_eq, List.mem_map]
  constructor
  · rintro ⟨own', member, rfl⟩
    rw [String.ofList_toList] at own
    have listed := own.mp member
    rw [fieldsOf_eq, List.map_map] at listed
    rcases List.mem_map.mp listed with ⟨⟨key, tree⟩, present, equal⟩
    refine ⟨tree, ?_⟩
    rw [← equal]
    simpa using present
  · rintro ⟨tree, present⟩
    refine ⟨.ofList name, own.mpr ?_, String.toList_ofList⟩
    rw [fieldsOf_eq, List.map_map]
    exact List.mem_map.mpr ⟨(name, tree), present, rfl⟩

theorem keys_nil {fields : Object} : dictOf fields = [] ↔ fields = [] := by
  constructor
  · intro none
    rcases fields with _ | ⟨⟨name, tree⟩, rest⟩
    · rfl
    · have listed : name ∈ dictKeys ((name, tree) :: rest) :=
        mem_dictKeys.mpr (mem_keys.mpr ⟨tree, List.mem_cons_self⟩)
      rw [dictKeys, none] at listed
      cases listed
  · rintro rfl
    rfl

def fieldValue (field : Option Tree) : Value := (field.map valueOf).getD .none

/-- A table with no key twice lists what is looked up for each key. -/
theorem table_eq {table : List (String × Value)} (distinct : (table.map Prod.fst).Nodup) :
    table = (table.map Prod.fst).map fun name => (name, (table.lookup name).getD .none) := by
  induction table with
  | nil => rfl
  | cons entry rest induction =>
      rcases entry with ⟨own, value⟩
      rw [List.map_cons, List.nodup_cons] at distinct
      rw [List.map_cons, List.map_cons, Table.lookup_cons, if_pos rfl]
      congr 1
      nth_rewrite 1 [induction distinct.2]
      refine List.map_congr_left fun name member => ?_
      have other : name ≠ own := by
        rintro rfl
        exact distinct.1 member
      rw [Table.lookup_cons, if_neg other]

theorem dictOf_eq (fields : Object) :
    dictOf fields = (dictKeys fields).map fun key =>
      (String.ofList key, fieldValue (fields.get key)) := by
  rw [dictKeys, List.map_map]
  nth_rewrite 1 [table_eq (distinct_dictOf fields)]
  rw [List.map_map]
  refine List.map_congr_left fun field _ => ?_
  have found := lookup_dictOf fields field.1.toList
  rw [String.ofList_toList] at found
  simp only [Function.comp_apply, found, String.ofList_toList]
  rfl

theorem get_dictOf (fields : Object) (name : String) :
    Reference.get (dictOf fields) name = fieldValue (fields.get name.toList) := by
  have found := lookup_dictOf fields name.toList
  rw [String.ofList_toList] at found
  rw [Reference.get, found]
  rfl

theorem items_field (field : Option Tree) :
    Reference.items (fieldValue field) = dictOf (asObject field) := by
  rcases field with _ | tree
  · rfl
  cases tree with
  | dict fields => rfl
  | null => rfl
  | bool value => rfl
  | number numeral =>
      rw [fieldValue, Option.map_some, Option.getD_some, valueOf, Numeral.value]
      split <;> rfl
  | str text => rfl
  | list items => rfl

/-! ## Lines -/

def Printable (text : Line) : Prop :=
  ∀ char ∈ text, 32 ≤ char.toNat ∧ char.toNat ≤ 126 ∧ char ≠ '"' ∧ char ≠ '\\'

instance (text : Line) : Decidable (Printable text) :=
  inferInstanceAs (Decidable (∀ char ∈ text,
    32 ≤ char.toNat ∧ char.toNat ≤ 126 ∧ char ≠ '"' ∧ char ≠ '\\'))

theorem Printable.unquoted {text : Line} (printable : Printable text) :
    Reference.unquoted text = text := by
  rw [Reference.unquoted, List.filter_eq_self]
  intro char member
  simpa using (printable char member).2.2.1

theorem Printable.escape {text : Line} (printable : Printable text) :
    text.flatMap Exposition.escape = text := by
  have own : ∀ char ∈ text, Exposition.escape char = [char] := by
    intro char member
    rcases printable char member with ⟨visible, _, quote, backslash⟩
    have line : char ≠ '\n' := by
      rintro rfl
      exact absurd visible (by decide)
    rw [Exposition.escape, if_neg backslash, if_neg line, if_neg quote]
  rw [List.flatMap_congr own]
  exact List.flatMap_singleton' text

theorem labelled_eq (name label : String) {value : Line} (printable : Printable value)
    (number : Int) : Reference.labelled name label value number =
      Entry.text (.sample ⟨name.toList, [(label.toList, value)], number⟩) := by
  rw [Entry.text_sample, labelText, if_neg (by simp), pairsText, pairText, printable.escape,
    Reference.labelled]
  simp

theorem block_eq (kind : Kind) (name help : String) (value : Int) (labels : List (Line × Line)) :
    Reference.block kind name help value (labelText labels) =
      (Family.entries ⟨name, help, kind, [(labels, value)]⟩).map Entry.text := rfl

theorem g_eq (name help : String) (value : Int) :
    Reference.g name help value [] = (single name help .gauge value).entries.map Entry.text :=
  block_eq .gauge name help value []

theorem print_lines (entries : List Entry) :
    print entries = (entries.map Entry.text).flatMap (· ++ ['\n']) := by
  rw [List.flatMap_map]
  rfl

/-- The lines of the numbers of an object. -/
theorem blocks_eq (fields : Object) {metrics : List Metric} {rows : List Reference.Row}
    (table : rows = metrics.map fun metric =>
      ⟨Reference.block metric.kind, metric.name, metric.help, metric.key⟩)
    (numeric : ∀ metric ∈ metrics, NumericField (fields.get metric.key.toList)) :
    Reference.blocks (dictOf fields) rows =
      .ok ((metrics.flatMap fun metric => (metric.family counted fields).entries).map
        Entry.text) := by
  rw [Reference.blocks, table, List.mapM_map]
  have each : ∀ metric ∈ metrics,
      (Reference.num (Reference.get (dictOf fields) metric.key)).map (fun number =>
        Reference.block metric.kind metric.name metric.help number []) =
      .ok ((metric.family counted fields).entries.map Entry.text) := by
    intro metric member
    rw [get_dictOf, fieldValue, num_field (numeric metric member)]
    rfl
  refine (congrArg (Except.map List.flatten) (mapM_ok each)).trans ?_
  rw [List.map_flatMap]
  rfl

/-- The lines of a metric with a label. -/
theorem samples_eq (name label help : String) (kind : Kind) (fields : Object)
    (value : Value → Except Raised Int) (read : Option Tree → Int)
    (printable : ∀ key ∈ keys fields, Printable key)
    (each : ∀ key ∈ keys fields,
      value (fieldValue (fields.get key)) = .ok (read (fields.get key))) :
    Reference.samples name label (dictOf fields) value =
      .ok ((Family.samples ⟨name, help, kind, keyedPoints dictKeys label fields read⟩).map
        fun sample => Entry.text (.sample sample)) := by
  rw [Reference.samples, Family.samples, keyedPoints]
  by_cases none : fields = []
  · rw [if_pos (keys_nil.mpr none), if_pos none]
    have word : Printable "none".toList := by decide
    rw [labelled_eq name label word 0]
    rfl
  · rw [if_neg (mt keys_nil.mp none), if_neg none]
    rw [dictOf_eq, List.mapM_map, List.map_map, List.map_map]
    apply mapM_ok
    intro key member
    have own := mem_dictKeys.mp member
    simp only [each key own, String.toList_ofList, (printable key own).unquoted, Except.map,
      labelled_eq name label (printable key own), Function.comp_apply]

/-! ## Files -/

/- No number in the value reaches 2^62. -/
mutual

def Small : Tree → Prop
  | .number numeral => SmallNumeral numeral
  | .list items => SmallItems items
  | .dict fields => SmallFields fields
  | _ => True

def SmallItems : List Tree → Prop
  | [] => True
  | item :: rest => Small item ∧ SmallItems rest

def SmallFields : List (Line × Tree) → Prop
  | [] => True
  | (_, tree) :: rest => Small tree ∧ SmallFields rest

end

theorem short_numeral {numeral : Numeral} (small : SmallNumeral numeral)
    (whole : numeral.isWhole = true) : Json.natOf numeral.whole < 10 ^ 4300 := by
  rw [SmallNumeral, exact_whole whole, Numeral.wholeValue, Numeral.sign] at small
  have bound : Json.natOf numeral.whole < 2 ^ 62 := by
    split at small
    · rw [Int.cast_mul, Int.cast_neg, Int.cast_one, neg_one_mul, abs_neg] at small
      exact_mod_cast small
    · rw [one_mul] at small
      exact_mod_cast small
  have longer : ∀ count, 62 ≤ count → Json.natOf numeral.whole < 10 ^ count := by
    intro count enough
    calc Json.natOf numeral.whole < 2 ^ 62 := bound
      _ ≤ 10 ^ 62 := Nat.pow_le_pow_left (by decide) 62
      _ ≤ 10 ^ count := Nat.pow_le_pow_right (by decide) enough
  exact longer 4300 (by decide)

mutual

theorem Small.short : ∀ {tree : Tree}, Small tree → Short tree
  | .number _, small => short_numeral small
  | .list _, small => SmallItems.short small
  | .dict _, small => SmallFields.short small
  | .null, _ => trivial
  | .bool _, _ => trivial
  | .str _, _ => trivial

theorem SmallItems.short : ∀ {items : List Tree}, SmallItems items → ShortItems items
  | [], _ => trivial
  | _ :: _, small => ⟨small.1.short, SmallItems.short small.2⟩

theorem SmallFields.short : ∀ {fields : List (Line × Tree)}, SmallFields fields → ShortFields fields
  | [], _ => trivial
  | (_, _) :: _, small => ⟨small.1.short, SmallFields.short small.2⟩

end

/-- What a file holds: nothing if it is absent, or if neither decoder reads its text, or a JSON
value, which may nest deeper than either reads. -/
inductive Content (python : Reference.Interpreter) : Option Line → Option Tree → Prop
  | absent : Content python none none
  | rejected {data text : Line} {raised : Raised} : Utf8.decode data = some text →
      GoJson.parse text = none →
      Json.loads python.depth (.ofList (Utf8.universal false text)) = .error raised →
      Content python (some data) none
  | value {data text : Line} {depth : Nat} {tree : Tree} : Utf8.decode data = some text →
      parseWithin depth text = some tree → Small tree → Content python (some data) (some tree)

/-- Python's decoder raises what the collector does not catch: the text nests too deep. -/
def GivesUp (python : Reference.Interpreter) (file : Option Line) : Prop :=
  ∃ data ∈ file, ∃ text ∈ Utf8.opened data, ∃ raised,
    Json.loads python.depth (.ofList text) = .error raised ∧ raised ≠ .valueError

section

variable {python : Reference.Interpreter} {file : Option Line} {tree : Option Tree}

/-- A value that Python reads is read by both. -/
theorem Content.read (content : Content python file tree) (reads : ¬GivesUp python file) :
    Reference.readStatus python file = .ok (dictOf (asObject tree)) ∧
      object file = asObject tree := by
  cases content with
  | absent => exact ⟨rfl, rfl⟩
  | @rejected data text raised decoded unread fails =>
      have opened : Utf8.opened data = some (Utf8.universal false text) := by
        rw [Utf8.opened, decoded]
        rfl
      have caught : raised = .valueError := by
        by_contra other
        exact reads ⟨data, rfl, _, opened, raised, fails, other⟩
      subst caught
      constructor
      · simp only [Reference.readStatus, opened, fails]
        rfl
      · simp only [object, Option.bind_some, runes_decode decoded, unread]
  | @value data text depth tree decoded parsed small =>
      have opened : Utf8.opened data = some (Utf8.universal false text) := by
        rw [Utf8.opened, decoded]
        rfl
      rcases loads_of_parse parsed small.short python.depth with ⟨loaded, fits⟩ | fails
      · have nested := parseWithin_deeper parsed (Nat.le_trans fits python.nests)
        constructor
        · simp only [Reference.readStatus, opened, loaded]
          cases tree with
          | number numeral =>
              by_cases whole : numeral.isWhole = true
              · simp only [valueOf, Numeral.value, if_pos whole]
                rfl
              · simp only [valueOf, Numeral.value, if_neg whole]
                rfl
          | _ => rfl
        · simp only [object, Option.bind_some, runes_decode decoded, GoJson.parse, nested]
      · exact absurd ⟨data, rfl, _, opened, .recursionError, fails, by decide⟩ reads

theorem readStatus_error (gives : GivesUp python file) :
    ∃ raised, Reference.readStatus python file = .error raised := by
  rcases gives with ⟨data, rfl, text, opened, raised, fails, other⟩
  refine ⟨raised, ?_⟩
  rw [Option.mem_def] at opened
  simp only [Reference.readStatus, opened, fails]

end

/-! ## The whole text -/

structure StatusFields (status : Object) : Prop where
  heartbeat : NumericField (status.get "supervisor_heartbeat_ts".toList)
  metrics : ∀ metric ∈ statusMetrics, NumericField (status.get metric.key.toList)
  version : ∀ tree, status.get "runner_version".toList = some tree →
    ∃ text, tree = .str text ∧ Printable text
  failures : let failures := asObject (status.get "jit_config_failures".toList)
    ∀ key ∈ keys failures, Printable key ∧ NumericField (failures.get key)
  repos : let repos := asObject (status.get "repos".toList)
    ∀ key ∈ keys repos, Printable key ∧
      ∀ metric ∈ repoMetrics, NumericField ((asObject (repos.get key)).get metric.key.toList)

def RebuildFields (rebuild : Object) : Prop :=
  ∀ metric ∈ rebuildMetrics, NumericField (rebuild.get metric.key.toList)

def firstOf (heartbeat other : Int) : Int := if heartbeat ≠ 0 then heartbeat else other

/-- `stale`, where no age is too long. -/
def agedOf (heartbeat staleSeconds now : Int) : Int :=
  if heartbeat = 0 ∨ staleSeconds < now - heartbeat then 1 else 0

theorem repoMetrics_gauge : ∀ metric ∈ repoMetrics, metric.kind = .gauge := by
  simp [repoMetrics]

section

variable {python : Reference.Interpreter} {status rebuild : Object}

theorem StatusFields.versionText (fields : StatusFields status)
    (python : Reference.Interpreter) :
    Reference.unquoted (python.text (((dictOf status).lookup "runner_version").getD
        (.str "unknown"))) = versionOf status ∧ Printable (versionOf status) := by
  have found := lookup_dictOf status "runner_version".toList
  rw [String.ofList_toList] at found
  rw [found, versionOf]
  cases present : status.get "runner_version".toList with
  | none =>
      have word : Printable "unknown".toList := by decide
      exact ⟨word.unquoted, word⟩
  | some tree =>
      rcases fields.version tree present with ⟨text, rfl, printable⟩
      simp only [Option.map_some, Option.getD_some, valueOf, Reference.Interpreter.text,
        String.toList_ofList, sprint]
      exact ⟨printable.unquoted, printable⟩

theorem supervisorHeartbeat_eq (fields : StatusFields status) (heartbeat : Int) :
    Reference.supervisorHeartbeat heartbeat (dictOf status) =
      .ok (firstOf heartbeat (counted (status.get "supervisor_heartbeat_ts".toList))) := by
  rw [Reference.supervisorHeartbeat, get_dictOf, fieldValue, num_field fields.heartbeat, firstOf]
  split <;> rfl

theorem versionFamily_eq {version : Line} (same : version = versionOf status)
    (printable : Printable (versionOf status)) :
    Reference.g "gh_runner_version_info" "Constant 1; labels the pinned runner version." 1
        ('\x7b' :: ("version".toList ++ '=' :: '"' :: (version ++ ['"', '\x7d']))) =
      (versionFamily status).entries.map Entry.text := by
  have labels : labelText [("version".toList, version)] =
      '\x7b' :: ("version".toList ++ '=' :: '"' :: (version ++ ['"', '\x7d'])) := by
    rw [labelText, if_neg (by simp), pairsText, pairText, same, printable.escape]
    simp
  rw [← labels, same]
  exact block_eq _ _ _ _ _

theorem failures_text (order : Object → List Line) (read : Option Tree → Int) (status : Object) :
    (failuresFamily order read status).entries.map Entry.text =
      Reference.headers .counter "gh_runner_jit_config_failures_total"
          "JIT config mint failures by HTTP status." ++
        (failuresFamily order read status).samples.map fun sample =>
          Entry.text (.sample sample) := by
  rw [Family.entries, List.map_cons, List.map_cons, List.map_map]
  rfl

theorem failures_eq (fields : StatusFields status) :
    Reference.samples "gh_runner_jit_config_failures_total" "status"
        (Reference.items (Reference.get (dictOf status) "jit_config_failures")) Reference.num =
      .ok ((failuresFamily dictKeys counted status).samples.map fun sample =>
        Entry.text (.sample sample)) := by
  rw [get_dictOf, items_field]
  exact samples_eq _ _ _ _ _ _ _ (fun key member => (fields.failures key member).1)
    fun key member => num_field (fields.failures key member).2

theorem repos_eq (fields : StatusFields status) :
    (Reference.repoRows.mapM fun row =>
      (Reference.samples row.1 "repo" (Reference.items (Reference.get (dictOf status) "repos"))
        fun info => Reference.num (Reference.get (Reference.items info) row.2.2)).map
          fun lines => Reference.headers .gauge row.1 row.2.1 ++ lines) =
      .ok (repoMetrics.map fun metric => (metric.repoFamily dictKeys counted
        (asObject (status.get "repos".toList))).entries.map Entry.text) := by
  have table : Reference.repoRows =
      repoMetrics.map fun metric => (metric.name, metric.help, metric.key) := rfl
  rw [get_dictOf, items_field, table, List.mapM_map]
  apply mapM_ok
  intro metric member
  have samples := samples_eq metric.name "repo" metric.help metric.kind
    (asObject (status.get "repos".toList))
    (fun info => Reference.num (Reference.get (Reference.items info) metric.key))
    (fun info => counted ((asObject info).get metric.key.toList))
    (fun key own => (fields.repos key own).1)
    (fun key own => by
      rw [items_field, get_dictOf]
      exact num_field ((fields.repos key own).2 metric member))
  simp only [Function.comp_apply, samples, Except.map, ← repoMetrics_gauge metric member]
  rw [Family.entries]
  simp only [List.map_cons, List.map_map]
  rfl

variable {statusFile heartbeatFile rebuildFile : Option Line} {statusTree rebuildTree : Option Tree}

/-- The Python text lists the metrics as it counts them. -/
theorem reference_eq (statusContent : Content python statusFile statusTree)
    (rebuildContent : Content python rebuildFile rebuildTree)
    (statusReads : ¬GivesUp python statusFile) (rebuildReads : ¬GivesUp python rebuildFile)
    (heartbeatDomain : HeartbeatFile heartbeatFile)
    (statusFields : StatusFields (asObject statusTree))
    (rebuildFields : RebuildFields (asObject rebuildTree)) (staleSeconds now : Int) :
    let status := asObject statusTree
    let heartbeat := firstOf (counted (some (.str (runes (heartbeatFile.getD [])))))
      (counted (status.get "supervisor_heartbeat_ts".toList))
    Reference.render python statusFile heartbeatFile staleSeconds now rebuildFile =
      .ok (print ((familiesBy dictKeys counted status (asObject rebuildTree) heartbeat
        (agedOf heartbeat staleSeconds now) now).flatMap Family.entries)) := by
  intro status heartbeat
  have readStatus := (statusContent.read statusReads).1
  have readRebuild := (rebuildContent.read rebuildReads).1
  have readHeartbeat := readHeartbeat_eq heartbeatDomain
  have supervisor := supervisorHeartbeat_eq statusFields
    (counted (some (.str (runes (heartbeatFile.getD [])))))
  have statusLines := blocks_eq (asObject statusTree)
    (show Reference.statusRows = statusMetrics.map _ from rfl) statusFields.metrics
  have rebuildLines := blocks_eq (asObject rebuildTree)
    (show Reference.rebuildRows = rebuildMetrics.map _ from rfl) rebuildFields
  have failureLines := failures_eq statusFields
  have repoLines := repos_eq statusFields
  have version := (statusFields.versionText python).1
  have versionLines := versionFamily_eq version (statusFields.versionText python).2
  simp only [Reference.render, readStatus, readRebuild, readHeartbeat, supervisor, statusLines,
    rebuildLines, failureLines, repoLines, versionLines, bind, Except.bind]
  refine congrArg Except.ok ?_
  rw [print_lines]
  refine congrArg (List.flatMap (· ++ ['\n'])) ?_
  simp only [familiesBy, List.flatMap_append, List.flatMap_cons, List.flatMap_nil, List.append_nil,
    List.flatMap_map, List.map_append, List.map_flatMap, g_eq, failures_text, List.append_assoc]
  rfl

end

theorem bind_ok {α β : Type} {first : Except Raised α} {next : α → Except Raised β} {result : β}
    (ends : first.bind next = .ok result) :
    ∃ value, first = .ok value ∧ next value = .ok result := by
  cases first with
  | error raised => cases ends
  | ok value => exact ⟨value, rfl, ends⟩

/-- A file that nests too deep ends the Python collector. -/
theorem render_reads {python : Reference.Interpreter}
    {statusFile heartbeatFile rebuildFile : Option Line} {staleSeconds now : Int} {text : Line}
    (rendered : Reference.render python statusFile heartbeatFile staleSeconds now rebuildFile =
      .ok text) : ¬GivesUp python statusFile ∧ ¬GivesUp python rebuildFile := by
  rcases bind_ok rendered with ⟨hb, _, rendered⟩
  rcases bind_ok rendered with ⟨status, statusRead, rendered⟩
  rcases bind_ok rendered with ⟨supervisor, _, rendered⟩
  rcases bind_ok rendered with ⟨lines, _, rendered⟩
  rcases bind_ok rendered with ⟨rebuild, rebuildRead, rendered⟩
  constructor
  · intro gives
    rcases readStatus_error gives with ⟨raised, unread⟩
    rw [unread] at statusRead
    cases statusRead
  · intro gives
    rcases readStatus_error gives with ⟨raised, unread⟩
    rw [unread] at rebuildRead
    cases rebuildRead

end Homelab.RunnerMetrics
