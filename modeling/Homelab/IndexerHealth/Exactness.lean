import Homelab.IndexerHealth.Probe

/-! # No failure is a zero

Each observation is successful exactly where its answer is a whole, valid list, and its counts
are exact then. Otherwise they are zero, and there is an error.
-/

namespace Homelab.IndexerHealth

open Text (Line)
open GoText GoJson

/-! ## What an answer says -/

/-- A body of at most 1 MiB, read to its end, with a status that is a success. -/
def Delivers (outcome : Outcome) (data : Line) : Prop :=
  ∃ r, outcome = some (.answered r) ∧ 200 ≤ r.statusCode ∧ r.statusCode < 300 ∧
    r.ending = .finished ∧ r.body = data ∧ data.length ≤ maxBodyBytes

/-- The answer is a list of records, and each has both texts. -/
def SaysHealth (key : Line) (outcome : Outcome) (records : List HealthRecord) : Prop :=
  key ≠ [] ∧ ∃ data trees, Delivers outcome data ∧ parse (runes data) = some (.list trees) ∧
    trees.mapM readHealth = some records ∧ ∀ h ∈ records, h.source ≠ [] ∧ h.type ≠ []

/-- The answer is a list of records, and each has an id. -/
def SaysStatus (key : Line) (outcome : Outcome) (records : List StatusRecord) : Prop :=
  key ≠ [] ∧ ∃ data node trees, Delivers outcome data ∧ parseNode (runes data) = some node ∧
    node.tree = .list trees ∧ node.items.mapM readStatus = some records ∧
    ∀ r ∈ records, 0 < r.indexerId

def HealthRecord.Problem (h : HealthRecord) : Prop :=
  h.type = "error".toList ∨ h.type = "warning".toList

def HealthRecord.ProxyProblem (h : HealthRecord) : Prop :=
  h.Problem ∧ h.source = "IndexerProxyStatusCheck".toList

def HealthRecord.IndexerProblem (h : HealthRecord) : Prop :=
  h.Problem ∧ h.source ≠ "IndexerProxyStatusCheck".toList ∧ "Indexer".toList <+: h.source

instance : DecidablePred HealthRecord.ProxyProblem :=
  fun _ => inferInstanceAs (Decidable ((_ ∨ _) ∧ _))

instance : DecidablePred HealthRecord.IndexerProblem :=
  fun _ => inferInstanceAs (Decidable ((_ ∨ _) ∧ _ ∧ _))

/-- The indexer is disabled up to some time in the future. -/
def InBackoff (now : Int) (records : List StatusRecord) (id : Int) : Prop :=
  ∃ r ∈ records, r.indexerId = id ∧ ∃ till ∈ r.disabledTill, now < till

structure HealthExact (key : Line) (outcome : Outcome) (result : Result) : Prop where
  ok : result.prowlarrReadOk = true ↔ ∃ records, SaysHealth key outcome records
  counts : ∀ records, SaysHealth key outcome records →
    result.proxyProblems = records.countP (fun h => h.ProxyProblem) ∧
      result.indexerProblems = records.countP (fun h => h.IndexerProblem) ∧
      result.prowlarrError = ""
  failed : (¬∃ records, SaysHealth key outcome records) →
    result.proxyProblems = 0 ∧ result.indexerProblems = 0 ∧ result.prowlarrError ≠ ""

structure StatusExact (key : Line) (outcome : Outcome) (now : Int) (result : Result) : Prop where
  ok : result.statusReadOk = true ↔ ∃ records, SaysStatus key outcome records
  count : ∀ records, SaysStatus key outcome records →
    (∃ ids : Finset Int, (∀ id, id ∈ ids ↔ InBackoff now records id) ∧
      result.indexersInBackoff = ids.card) ∧ result.statusError = ""
  failed : (¬∃ records, SaysStatus key outcome records) →
    result.indexersInBackoff = 0 ∧ result.statusError ≠ ""

/-! ## Requests -/

theorem request_delivers {reply : Reply} {data : Line} (delivers : Delivers (some reply) data) :
    request reply = (data, "") := by
  rcases delivers with ⟨r, answered, low, high, finished, rfl, small⟩
  cases Option.some.inj answered
  have whole : r.body.take (maxBodyBytes + 1) = r.body := List.take_of_length_le (by omega)
  rw [request, if_neg (by omega), readAll, finished]
  simp only [whole]
  rw [if_neg (by omega)]

theorem request_refused {reply : Reply} (refused : ∀ data, ¬Delivers (some reply) data) :
    (request reply).2 ≠ "" := by
  cases reply with
  | failed => simp [request]
  | answered r =>
      rw [request]
      split
      · simp
      · next success =>
          split
          · simp
          · next data read =>
              split
              · simp
              · next small =>
                  exfalso
                  rw [readAll] at read
                  split at read
                  · next finished =>
                      cases read
                      rw [List.length_take] at small
                      exact refused r.body
                        ⟨r, rfl, by omega, by omega, finished, rfl, by omega⟩
                  · split at read
                    · cases read
                    · next early =>
                        cases read
                        rw [List.length_take] at small
                        omega

/-! ## Lists -/

/-- Space of JSON is white space. -/
theorem isSpace_of_json {char : Char} (space : Json.isSpace char = true) : isSpace char = true := by
  simp only [Json.isSpace, Bool.or_eq_true, decide_eq_true_eq] at space
  rcases space with ((rfl | rfl) | rfl) | rfl <;> decide

/-- The first visible rune of a text is the first one after it is trimmed. -/
theorem head_trimSpace {text rest : Line} {first : Char} (skipped : Json.skip text = first :: rest)
    (visible : isSpace first = false) : (trimSpace text).head? = some first := by
  have front : text.dropWhile isSpace = first :: rest := by
    have whole : text = text.takeWhile Json.isSpace ++ first :: rest := by
      rw [← skipped]
      exact List.takeWhile_append_dropWhile.symm
    rw [whole, List.dropWhile_append_of_pos fun char member =>
      isSpace_of_json (List.mem_takeWhile_imp member),
      List.dropWhile_cons_of_neg (by simp [visible])]
  have kept : ∃ back, (first :: rest).reverse.dropWhile isSpace = back ++ [first] := by
    rw [List.reverse_cons, List.dropWhile_append]
    split
    · exact ⟨[], List.dropWhile_cons_of_neg (by simp [visible])⟩
    · exact ⟨_, rfl⟩
  rcases kept with ⟨back, kept⟩
  rw [trimSpace, front, kept, List.reverse_append]
  rfl

theorem scanAtom_null {chars rest : Line} (read : scanAtom chars = some (.null, rest)) :
    ∃ own, chars = 'n' :: own := by
  rw [scanAtom] at read
  split at read
  · next name constant found =>
      have member := List.mem_of_find?_eq_some found
      have starts := List.find?_some found
      cases read
      simp only [constants, List.mem_cons, Prod.mk.injEq, List.not_mem_nil, or_false] at member
      rcases member with ⟨rfl, _⟩ | ⟨_, own⟩ | ⟨_, own⟩
      · rcases List.isPrefixOf_iff_prefix.mp starts with ⟨after, rfl⟩
        exact ⟨_, rfl⟩
      · cases own
      · cases own
  · rcases Option.map_eq_some_iff.mp read with ⟨⟨numeral, after⟩, scanned, same⟩
    cases same

theorem scanValue_null {steps depth : Nat} {chars rest : Line}
    (read : scanValue steps depth chars = some (.null, rest)) : ∃ own, chars = 'n' :: own := by
  rcases steps with _ | steps
  · cases read
  rw [scanValue.eq_def] at read
  simp only at read
  split at read
  · rcases Option.map_eq_some_iff.mp read with ⟨⟨text, after⟩, scanned, same⟩
    cases same
  · rcases depth with _ | depth
    · cases read
    simp only at read
    split at read
    · cases read
    · rcases Option.map_eq_some_iff.mp read with ⟨⟨items, after⟩, scanned, same⟩
      cases same
  · rcases depth with _ | depth
    · cases read
    simp only at read
    split at read
    · cases read
    · rcases Option.map_eq_some_iff.mp read with ⟨⟨fields, after⟩, scanned, same⟩
      cases same
  · exact scanAtom_null read

/-- The first bracket tells a list from what else would be put into a slice. -/
theorem array_iff {α : Type} (read : Node → Option α) (data : Line) (records : List α) :
    (startsArray data = true ∧ unmarshalSlice read (runes data) = some records) ↔
      ∃ node trees, parseNode (runes data) = some node ∧ node.tree = .list trees ∧
        node.items.mapM read = some records := by
  constructor
  · intro own
    rcases own with ⟨starts, decoded⟩
    rcases Option.bind_eq_some_iff.mp decoded with ⟨node, parsed, items⟩
    split at items
    · next null =>
        -- a null is put into a slice as well, but does not start as a list does
        exfalso
        rcases Option.map_eq_some_iff.mp parsed with ⟨tree, whole, rfl⟩
        rcases Option.bind_eq_some_iff.mp whole with ⟨⟨tree', rest⟩, scanned, closed⟩
        simp only at closed null
        split at closed
        · cases closed
          rw [null] at scanned
          rcases scanValue_null scanned with ⟨own, spelled⟩
          rw [startsArray, head_trimSpace spelled (by decide)] at starts
          simp at starts
        · cases closed
    · next trees list => exact ⟨node, trees, parsed, list, items⟩
    · cases items
  · intro own
    rcases own with ⟨node, trees, parsed, list, items⟩
    constructor
    · rcases Option.map_eq_some_iff.mp parsed with ⟨tree, whole, rfl⟩
      rcases Option.bind_eq_some_iff.mp whole with ⟨⟨tree', rest⟩, scanned, closed⟩
      simp only at closed list
      split at closed
      · cases closed
        rw [list] at scanned
        cases scanValue_shape scanned with
        | flat other _ => exact absurd rfl (other _)
        | list own _ spelled _ =>
            rw [startsArray, head_trimSpace spelled (by decide)]
            simp
      · cases closed
    · rw [unmarshalSlice, parsed]
      simp only [bind, Option.bind_some, list]
      exact items

/-- The same, where no field needs its text. -/
theorem array_trees_iff {α : Type} (read : Tree → Option α) (data : Line) (records : List α) :
    (startsArray data = true ∧
        unmarshalSlice (fun node => read node.tree) (runes data) = some records) ↔
      ∃ trees, parse (runes data) = some (.list trees) ∧ trees.mapM read = some records := by
  rw [array_iff]
  constructor
  · intro own
    rcases own with ⟨node, trees, parsed, list, records⟩
    rcases parseNode_sound parsed with ⟨sound, whole⟩
    rw [list] at whole
    refine ⟨trees, whole, ?_⟩
    rw [← (sound.items list).1, List.mapM_map]
    exact records
  · intro own
    rcases own with ⟨trees, parsed, records⟩
    have whole : ∃ node, parseNode (runes data) = some node ∧ node.tree = .list trees := by
      rw [parseNode, parsed]
      exact ⟨_, rfl, rfl⟩
    rcases whole with ⟨node, whole, list⟩
    refine ⟨node, trees, whole, list, ?_⟩
    rw [← ((parseNode_sound whole).1.items list).1, List.mapM_map] at records
    exact records

/-! ## Records -/

theorem countHealth_valid {records : List HealthRecord}
    (valid : ∀ h ∈ records, h.source ≠ [] ∧ h.type ≠ []) (result : Result) :
    countHealth result records =
      { result with
        proxyProblems := result.proxyProblems + records.countP (fun h => h.ProxyProblem)
        indexerProblems :=
          result.indexerProblems + records.countP (fun h => h.IndexerProblem) } := by
  induction records generalizing result with
  | nil => rfl
  | cons h rest induction =>
      rcases List.forall_mem_cons.mp valid with ⟨own, others⟩
      rw [countHealth, if_neg (not_or.mpr own)]
      by_cases problem : h.Problem
      · rw [if_neg fun other => problem.elim other.1 other.2]
        by_cases proxy : h.source = "IndexerProxyStatusCheck".toList
        · have first : h.ProxyProblem := ⟨problem, proxy⟩
          have second : ¬h.IndexerProblem := fun other => other.2.1 proxy
          rw [if_pos proxy, induction others, List.countP_cons_of_pos (by simpa using first),
            List.countP_cons_of_neg (by simpa using second)]
          simp only [Nat.add_assoc, Nat.add_comm 1]
        · have first : ¬h.ProxyProblem := fun other => proxy other.2
          rw [if_neg proxy, List.countP_cons_of_neg (by simpa using first)]
          by_cases indexer : "Indexer".toList <+: h.source
          · have second : h.IndexerProblem := ⟨problem, proxy, indexer⟩
            rw [if_pos (List.isPrefixOf_iff_prefix.mpr indexer), induction others,
              List.countP_cons_of_pos (by simpa using second)]
            simp only [Nat.add_assoc, Nat.add_comm 1]
          · have second : ¬h.IndexerProblem := fun other => indexer other.2.2
            rw [if_neg fun own => indexer (List.isPrefixOf_iff_prefix.mp own), induction others,
              List.countP_cons_of_neg (by simpa using second)]
      · have first : ¬h.ProxyProblem := fun other => problem other.1
        have second : ¬h.IndexerProblem := fun other => problem other.1
        rw [if_pos (not_or.mp problem), induction others,
          List.countP_cons_of_neg (by simpa using first),
          List.countP_cons_of_neg (by simpa using second)]

theorem countHealth_invalid {records : List HealthRecord}
    (invalid : ∃ h ∈ records, h.source = [] ∨ h.type = []) (result : Result) :
    countHealth result records =
      { result with
        prowlarrReadOk := false
        prowlarrError := "invalid_health_record"
        proxyProblems := 0
        indexerProblems := 0 } := by
  induction records generalizing result with
  | nil => simp at invalid
  | cons h rest induction =>
      rw [countHealth]
      by_cases own : h.source = [] ∨ h.type = []
      · rw [if_pos own]
      · have others : ∃ h ∈ rest, h.source = [] ∨ h.type = [] := by
          rcases invalid with ⟨bad, member, lacks⟩
          rcases List.mem_cons.mp member with rfl | member
          · exact absurd lacks own
          · exact ⟨bad, member, lacks⟩
        rw [if_neg own]
        split
        · exact induction others result
        · split
          · exact induction others _
          · split
            · exact induction others _
            · exact induction others result

theorem inBackoff_cons {now : Int} {r : StatusRecord} {rest : List StatusRecord} {id : Int} :
    InBackoff now (r :: rest) id ↔
      (r.indexerId = id ∧ ∃ till ∈ r.disabledTill, now < till) ∨ InBackoff now rest id := by
  simp only [InBackoff, List.mem_cons, exists_eq_or_imp]

theorem blockedBy_valid (now : Int) {records : List StatusRecord}
    (valid : ∀ r ∈ records, 0 < r.indexerId) (blocked : Finset Int) :
    ∃ ids, blockedBy now blocked records = some ids ∧
      ∀ id, id ∈ ids ↔ id ∈ blocked ∨ InBackoff now records id := by
  induction records generalizing blocked with
  | nil => exact ⟨blocked, rfl, fun id => by simp [InBackoff]⟩
  | cons r rest induction =>
      rcases List.forall_mem_cons.mp valid with ⟨own, others⟩
      rw [blockedBy, if_neg (by omega)]
      by_cases disabled : ∃ till ∈ r.disabledTill, now < till
      · rcases induction others (insert r.indexerId blocked) with ⟨ids, found, members⟩
        refine ⟨ids, by rw [if_pos disabled, found], fun id => ?_⟩
        rw [members id, Finset.mem_insert, inBackoff_cons, and_iff_left disabled, or_left_comm,
          or_assoc, eq_comm]
      · rcases induction others blocked with ⟨ids, found, members⟩
        refine ⟨ids, by rw [if_neg disabled, found], fun id => ?_⟩
        have other : ¬(r.indexerId = id ∧ ∃ till ∈ r.disabledTill, now < till) :=
          fun own => disabled own.2
        rw [members id, inBackoff_cons, or_iff_right other]

theorem blockedBy_invalid {now : Int} {records : List StatusRecord}
    (invalid : ∃ r ∈ records, r.indexerId ≤ 0) (blocked : Finset Int) :
    blockedBy now blocked records = none := by
  induction records generalizing blocked with
  | nil => simp at invalid
  | cons r rest induction =>
      rw [blockedBy]
      by_cases own : r.indexerId ≤ 0
      · rw [if_pos own]
      · have others : ∃ r ∈ rest, r.indexerId ≤ 0 := by
          rcases invalid with ⟨bad, member, lacks⟩
          rcases List.mem_cons.mp member with rfl | member
          · exact absurd lacks own
          · exact ⟨bad, member, lacks⟩
        rw [if_neg own]
        split
        · exact induction others _
        · exact induction others blocked

theorem parseBackoff_valid {data : Line} {node : Node} {trees : List Tree}
    {records : List StatusRecord} (parsed : parseNode (runes data) = some node)
    (list : node.tree = .list trees) (read : node.items.mapM readStatus = some records)
    (valid : ∀ r ∈ records, 0 < r.indexerId) (now : Int) :
    ∃ ids : Finset Int, (∀ id, id ∈ ids ↔ InBackoff now records id) ∧
      parseBackoff data now = (ids.card, "") := by
  rcases (array_iff readStatus data records).mpr ⟨node, trees, parsed, list, read⟩ with
    ⟨starts, decoded⟩
  rcases blockedBy_valid now valid ∅ with ⟨ids, blocked, members⟩
  refine ⟨ids, fun id => by simpa using members id, ?_⟩
  simp only [parseBackoff, starts, decoded, blocked]

theorem parseBackoff_else (data : Line)
    (silent : ¬∃ records node trees, parseNode (runes data) = some node ∧
      node.tree = .list trees ∧ node.items.mapM readStatus = some records ∧
      ∀ r ∈ records, 0 < r.indexerId) (now : Int) :
    ∃ error, error ≠ "" ∧ parseBackoff data now = (0, error) := by
  rw [parseBackoff]
  split
  · next records starts decoded =>
      rcases (array_iff readStatus data records).mp ⟨starts, decoded⟩ with
        ⟨node, trees, parsed, list, read⟩
      have invalid : ∃ r ∈ records, r.indexerId ≤ 0 := by
        by_contra valid
        exact silent ⟨records, node, trees, parsed, list, read,
          fun r member => not_le.mp fun bad => valid ⟨r, member, bad⟩⟩
      rw [blockedBy_invalid invalid]
      exact ⟨_, by decide, rfl⟩
  · exact ⟨_, by decide, rfl⟩

/-! ## The parts of the result -/

theorem countHealth_others (records : List HealthRecord) (result : Result) :
    (countHealth result records).status = result.status ∧
      (countHealth result records).browser = result.browser := by
  by_cases invalid : ∃ h ∈ records, h.source = [] ∨ h.type = []
  · rw [countHealth_invalid invalid]
    exact ⟨rfl, rfl⟩
  · rw [countHealth_valid fun h member => not_or.mp fun lacks => invalid ⟨h, member, lacks⟩]
    exact ⟨rfl, rfl⟩

theorem observeHealth_others (outcome : Outcome) (result : Result) :
    (observeHealth outcome result).status = result.status ∧
      (observeHealth outcome result).browser = result.browser := by
  cases outcome with
  | none => exact ⟨rfl, rfl⟩
  | some reply =>
      rw [observeHealth]
      simp only
      split
      · split
        · exact countHealth_others _ _
        · exact ⟨rfl, rfl⟩
      · exact ⟨rfl, rfl⟩

theorem observeStatus_others (outcome : Outcome) (now : Int) (result : Result) :
    (observeStatus outcome now result).prowlarr = result.prowlarr ∧
      (observeStatus outcome now result).browser = result.browser := by
  cases outcome with
  | none => exact ⟨rfl, rfl⟩
  | some reply =>
      rw [observeStatus]
      simp only
      split
      · exact ⟨rfl, rfl⟩
      · exact ⟨rfl, rfl⟩

theorem observeStatus_own (outcome : Outcome) (now : Int) {left right : Result}
    (same : left.status = right.status) :
    (observeStatus outcome now left).status = (observeStatus outcome now right).status := by
  simp only [Result.status, Prod.mk.injEq] at same
  rcases same with ⟨ok, count, error⟩
  cases outcome with
  | none => simp only [observeStatus, Result.status, ok, count]
  | some reply =>
      simp only [observeStatus]
      split
      · rfl
      · simp only [Result.status, ok, count]

theorem observeBrowser_others (outcome : Outcome) (result : Result) :
    (observeBrowser outcome result).prowlarr = result.prowlarr ∧
      (observeBrowser outcome result).status = result.status := by
  cases outcome with
  | none => exact ⟨rfl, rfl⟩
  | some reply =>
      rw [observeBrowser]
      simp only
      split
      · split
        · exact ⟨rfl, rfl⟩
        · split
          · exact ⟨rfl, rfl⟩
          · split
            · exact ⟨rfl, rfl⟩
            · split
              · exact ⟨rfl, rfl⟩
              · exact ⟨rfl, rfl⟩
      · exact ⟨rfl, rfl⟩

theorem observeBrowser_own (outcome : Outcome) {left right : Result}
    (same : left.browser = right.browser) :
    (observeBrowser outcome left).browser = (observeBrowser outcome right).browser := by
  simp only [Result.browser, Prod.mk.injEq] at same
  rcases same with ⟨ok, status, bytes, error⟩
  cases outcome with
  | none => simp only [observeBrowser, Result.browser, ok, status, bytes]
  | some reply =>
      simp only [observeBrowser]
      split
      · split
        · simp only [Result.browser, ok, status, bytes]
        · split
          · simp only [Result.browser, ok]
          · split
            · simp only [Result.browser, ok]
            · split
              · simp only [Result.browser, ok]
              · rfl
      · simp only [Result.browser, ok, status, bytes]

/-- Without a key neither list is asked for. -/
def unreadable : Result :=
  { Result.zero with prowlarrError := "config_unreadable", statusError := "config_unreadable" }

def healthOf (key : Line) (outcome : Outcome) : Bool × Nat × Nat × String :=
  if key = [] then unreadable.prowlarr else (observeHealth outcome .zero).prowlarr

def statusOf (key : Line) (outcome : Outcome) (now : Int) : Bool × Nat × String :=
  if key = [] then unreadable.status else (observeStatus outcome now .zero).status

def browserOf (outcome : Outcome) : Bool × Int × Nat × String :=
  (observeBrowser outcome .zero).browser

theorem collect_parts (key : Line) (met : Surroundings) :
    (collect key met).prowlarr = healthOf key met.health ∧
      (collect key met).status = statusOf key met.status met.now ∧
      (collect key met).browser = browserOf met.browser := by
  rw [healthOf, statusOf]
  by_cases none_ : key = []
  · rw [if_pos none_, if_pos none_]
    have browser := observeBrowser_others met.browser unreadable
    simp only [collect, if_pos none_]
    exact ⟨browser.1, browser.2, observeBrowser_own met.browser rfl⟩
  · rw [if_neg none_, if_neg none_]
    rcases observeHealth_others met.health .zero with ⟨status, browser⟩
    rcases observeStatus_others met.status met.now (observeHealth met.health .zero) with
      ⟨prowlarr, browser'⟩
    rcases observeBrowser_others met.browser
      (observeStatus met.status met.now (observeHealth met.health .zero)) with ⟨prowlarr', status'⟩
    simp only [collect, if_neg none_]
    exact ⟨prowlarr'.trans prowlarr,
      status'.trans (observeStatus_own met.status met.now status),
      observeBrowser_own met.browser (browser'.trans browser)⟩

/-! ## Each observation -/

theorem delivered_once {outcome : Outcome} {first second : Line} (left : Delivers outcome first)
    (right : Delivers outcome second) : first = second := by
  rcases left with ⟨r, rfl, _, _, _, rfl, _⟩
  rcases right with ⟨r', same, _, _, _, rfl, _⟩
  cases same
  rfl

theorem saysHealth_once {key : Line} {outcome : Outcome} {first second : List HealthRecord}
    (left : SaysHealth key outcome first) (right : SaysHealth key outcome second) :
    first = second := by
  rcases left with ⟨_, data, trees, delivers, parsed, records, _⟩
  rcases right with ⟨_, data', trees', delivers', parsed', records', _⟩
  cases delivered_once delivers delivers'
  cases parsed.symm.trans parsed'
  exact Option.some.inj (records.symm.trans records')

theorem saysStatus_once {key : Line} {outcome : Outcome} {first second : List StatusRecord}
    (left : SaysStatus key outcome first) (right : SaysStatus key outcome second) :
    first = second := by
  rcases left with ⟨_, data, node, trees, delivers, parsed, _, records, _⟩
  rcases right with ⟨_, data', node', trees', delivers', parsed', _, records', _⟩
  cases delivered_once delivers delivers'
  cases parsed.symm.trans parsed'
  exact Option.some.inj (records.symm.trans records')

/-- The observation of the health, with its counts, where the answer is whole and valid. -/
theorem healthOf_valid {key : Line} {outcome : Outcome} {records : List HealthRecord}
    (tells : SaysHealth key outcome records) :
    healthOf key outcome = (true, records.countP (fun h => h.ProxyProblem),
      records.countP (fun h => h.IndexerProblem), "") := by
  rcases tells with ⟨readable, data, trees, delivers, parsed, read, valid⟩
  rcases (array_trees_iff readHealth data records).mpr ⟨trees, parsed, read⟩ with ⟨starts, decoded⟩
  cases outcome with
  | none =>
      rcases delivers with ⟨r, none_, _⟩
      cases none_
  | some reply =>
      rw [healthOf, if_neg readable, observeHealth]
      simp only [request_delivers delivers, starts, decoded, if_true, countHealth_valid valid]
      simp [Result.prowlarr, Result.zero]

/-- Whatever else the answer is, no count is left, and there is an error. -/
theorem healthOf_else {key : Line} {outcome : Outcome}
    (silent : ¬∃ records, SaysHealth key outcome records) :
    ∃ error, error ≠ "" ∧ healthOf key outcome = (false, 0, 0, error) := by
  rw [healthOf]
  by_cases none_ : key = []
  · rw [if_pos none_]
    exact ⟨_, by decide, rfl⟩
  · rw [if_neg none_]
    cases outcome with
    | none => exact ⟨_, by decide, rfl⟩
    | some reply =>
        by_cases delivered : ∃ data, Delivers (some reply) data
        · rcases delivered with ⟨data, delivers⟩
          rw [observeHealth]
          simp only [request_delivers delivers, if_true]
          split
          · next records starts decoded =>
              rcases (array_trees_iff readHealth data records).mp ⟨starts, decoded⟩ with
                ⟨trees, parsed, read⟩
              have invalid : ∃ h ∈ records, h.source = [] ∨ h.type = [] := by
                by_contra valid
                exact silent ⟨records, none_, data, trees, delivers, parsed, read,
                  fun h member => not_or.mp fun lacks => valid ⟨h, member, lacks⟩⟩
              rw [countHealth_invalid invalid]
              exact ⟨_, by decide, rfl⟩
          · exact ⟨_, by decide, rfl⟩
        · have refused := request_refused fun data delivers => delivered ⟨data, delivers⟩
          rw [observeHealth]
          simp only [if_neg refused]
          exact ⟨_, refused, rfl⟩

theorem statusOf_valid {key : Line} {outcome : Outcome} {records : List StatusRecord}
    (tells : SaysStatus key outcome records) (now : Int) :
    ∃ ids : Finset Int, (∀ id, id ∈ ids ↔ InBackoff now records id) ∧
      statusOf key outcome now = (true, ids.card, "") := by
  rcases tells with ⟨readable, data, node, trees, delivers, parsed, list, read, valid⟩
  rcases parseBackoff_valid parsed list read valid now with ⟨ids, members, counted⟩
  refine ⟨ids, members, ?_⟩
  cases outcome with
  | none =>
      rcases delivers with ⟨r, none_, _⟩
      cases none_
  | some reply =>
      rw [statusOf, if_neg readable, observeStatus]
      simp only [request_delivers delivers, if_true, counted]
      rfl

theorem statusOf_else {key : Line} {outcome : Outcome}
    (silent : ¬∃ records, SaysStatus key outcome records) (now : Int) :
    ∃ error, error ≠ "" ∧ statusOf key outcome now = (false, 0, error) := by
  rw [statusOf]
  by_cases none_ : key = []
  · rw [if_pos none_]
    exact ⟨_, by decide, rfl⟩
  · rw [if_neg none_]
    cases outcome with
    | none => exact ⟨"invalid_request", by decide, rfl⟩
    | some reply =>
        rw [observeStatus]
        by_cases delivered : ∃ data, Delivers (some reply) data
        · rcases delivered with ⟨data, delivers⟩
          have wrong : ¬∃ records node trees, parseNode (runes data) = some node ∧
              node.tree = .list trees ∧ node.items.mapM readStatus = some records ∧
              ∀ r ∈ records, 0 < r.indexerId := by
            intro own
            rcases own with ⟨records, node, trees, parsed, list, read, valid⟩
            exact silent ⟨records, none_, data, node, trees, delivers, parsed, list, read, valid⟩
          rcases parseBackoff_else data wrong now with ⟨error, some_, failed⟩
          simp only [request_delivers delivers, if_true, failed]
          exact ⟨error, some_, by simp [Result.status, some_]⟩
        · have refused := request_refused fun data delivers => delivered ⟨data, delivers⟩
          simp only [if_neg refused]
          exact ⟨_, refused, rfl⟩

theorem browserOf_ok (outcome : Outcome) :
    (browserOf outcome).1 = true ↔ (browserOf outcome).2.2.2 = "" := by
  rw [browserOf]
  cases outcome with
  | none => decide
  | some reply =>
      simp only [observeBrowser]
      split
      · next delivered =>
          split
          · decide
          · split
            · simp [Result.browser, Result.zero]
            · split
              · simp [Result.browser, Result.zero]
              · split
                · simp [Result.browser, Result.zero]
                · simpa [Result.browser] using delivered
      · next refused => simp [Result.browser, Result.zero, refused]

theorem healthExact {key : Line} {outcome : Outcome} {result : Result}
    (parts : result.prowlarr = healthOf key outcome) : HealthExact key outcome result := by
  by_cases heard : ∃ records, SaysHealth key outcome records
  · rcases heard with ⟨records, tells⟩
    rw [healthOf_valid tells] at parts
    simp only [Result.prowlarr, Prod.mk.injEq] at parts
    rcases parts with ⟨ok, proxy, indexer, error⟩
    constructor
    · exact ⟨fun _ => ⟨records, tells⟩, fun _ => ok⟩
    · intro others tells'
      cases saysHealth_once tells tells'
      exact ⟨proxy, indexer, error⟩
    · exact fun silent => absurd ⟨records, tells⟩ silent
  · rcases healthOf_else heard with ⟨error, some_, failed⟩
    rw [failed] at parts
    simp only [Result.prowlarr, Prod.mk.injEq] at parts
    rcases parts with ⟨ok, proxy, indexer, own⟩
    constructor
    · rw [ok]
      exact iff_of_false Bool.false_ne_true heard
    · exact fun records tells => absurd ⟨records, tells⟩ heard
    · rw [own]
      exact fun _ => ⟨proxy, indexer, some_⟩

theorem statusExact {key : Line} {outcome : Outcome} {now : Int} {result : Result}
    (parts : result.status = statusOf key outcome now) : StatusExact key outcome now result := by
  by_cases heard : ∃ records, SaysStatus key outcome records
  · rcases heard with ⟨records, tells⟩
    rcases statusOf_valid tells now with ⟨ids, members, valid⟩
    rw [valid] at parts
    simp only [Result.status, Prod.mk.injEq] at parts
    rcases parts with ⟨ok, count, error⟩
    constructor
    · exact ⟨fun _ => ⟨records, tells⟩, fun _ => ok⟩
    · intro others tells'
      cases saysStatus_once tells tells'
      exact ⟨⟨ids, members, count⟩, error⟩
    · exact fun silent => absurd ⟨records, tells⟩ silent
  · rcases statusOf_else heard now with ⟨error, some_, failed⟩
    rw [failed] at parts
    simp only [Result.status, Prod.mk.injEq] at parts
    rcases parts with ⟨ok, count, own⟩
    constructor
    · rw [ok]
      exact iff_of_false Bool.false_ne_true heard
    · exact fun records tells => absurd ⟨records, tells⟩ heard
    · rw [own]
      exact fun _ => ⟨count, some_⟩

/-! ## The run -/

/-- Every observation is exact, a failure leaves no count and has an error, and each depends on
the outcome of its own request alone. -/
theorem collect_exact (key : Line) :
    (∀ met, HealthExact key met.health (collect key met) ∧
      StatusExact key met.status met.now (collect key met) ∧
      ((collect key met).browserOk = true ↔ (collect key met).browserError = "")) ∧
    (∃ own : Outcome → Bool × Nat × Nat × String,
      ∀ met, (collect key met).prowlarr = own met.health) ∧
    (∃ own : Outcome → Int → Bool × Nat × String,
      ∀ met, (collect key met).status = own met.status met.now) ∧
    ∃ own : Outcome → Bool × Int × Nat × String,
      ∀ met, (collect key met).browser = own met.browser := by
  refine ⟨fun met => ?_, ⟨healthOf key, fun met => (collect_parts key met).1⟩,
    ⟨statusOf key, fun met => (collect_parts key met).2.1⟩,
    ⟨browserOf, fun met => (collect_parts key met).2.2⟩⟩
  rcases collect_parts key met with ⟨health, status, browser⟩
  refine ⟨healthExact health, statusExact status, ?_⟩
  have own := browserOf_ok met.browser
  rw [← browser] at own
  exact own

/-- What a record says is its source and its type, whatever stands beside them. -/
example : (collect ['k'] ⟨some (.answered ⟨200,
    "[\x7b\"source\":\"IndexerProxyStatusCheck\",\"type\":\"warning\"\x7d,".toList ++
      "\x7b\"id\":1,\"source\":\"IndexerA\",\"type\":\"error\"\x7d,".toList ++
      "\x7b\"source\":\"IndexerA\",\"type\":\"notice\"\x7d]".toList, .finished⟩),
    none, none, 0, 0, 0⟩).prowlarr = (true, 1, 1, "") := by decide +kernel

end Homelab.IndexerHealth
