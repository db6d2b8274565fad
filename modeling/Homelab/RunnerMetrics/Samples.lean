import Homelab.RunnerMetrics.Collector

/-! # What a scraper reads in the rendered metrics

Every text of the status file may become a label value. It is read back as it is, and the
headers and samples are those that were meant.
-/

namespace Homelab.RunnerMetrics

open Text GoText GoJson Exposition

/-! ## What is meant -/

abbrev Point := List (Line × Line) × Int

def single (name help : String) (kind : Kind) (value : Int) : Family :=
  ⟨name, help, kind, [([], value)]⟩

/-- What a metric shows, where `read` is what a field counts as. -/
def Metric.family (metric : Metric) (read : Option Tree → Int) (fields : Object) : Family :=
  single metric.name metric.help metric.kind (read (fields.get metric.key.toList))

/-- A value for each key, or one that says that there is none. `order` lists the keys. -/
def keyedPoints (order : Object → List Line) (labelName : String) (fields : Object)
    (value : Option Tree → Int) : List Point :=
  if fields = [] then [([(labelName.toList, "none".toList)], 0)]
  else (order fields).map fun key => ([(labelName.toList, key)], value (fields.get key))

def Metric.repoFamily (metric : Metric) (order : Object → List Line) (read : Option Tree → Int)
    (repos : Object) : Family :=
  ⟨metric.name, metric.help, metric.kind, keyedPoints order "repo" repos fun info =>
    read ((asObject info).get metric.key.toList)⟩

def versionFamily (status : Object) : Family :=
  ⟨"gh_runner_version_info", "Constant 1; labels the pinned runner version.", .gauge,
    [([("version".toList, versionOf status)], 1)]⟩

def failuresFamily (order : Object → List Line) (read : Option Tree → Int) (status : Object) :
    Family :=
  ⟨"gh_runner_jit_config_failures_total", "JIT config mint failures by HTTP status.", .counter,
    keyedPoints order "status" (asObject (status.get "jit_config_failures".toList)) read⟩

def familiesBy (order : Object → List Line) (read : Option Tree → Int) (status rebuild : Object)
    (heartbeat stale now : Int) : List Family :=
  [single "gh_runner_metrics_last_run_unix_seconds" "Unix time of the last Pi emitter run." .gauge
      now,
    single "gh_runner_supervisor_heartbeat_timestamp_seconds"
      "Unix ts of the last Mac supervisor heartbeat (0 if missing)." .gauge heartbeat,
    single "gh_runner_heartbeat_stale"
      "1 when the supervisor heartbeat is missing or older than the threshold." .gauge stale] ++
    (statusMetrics.map fun metric => metric.family read status) ++
    [versionFamily status] ++
    (rebuildMetrics.map fun metric => metric.family read rebuild) ++
    [failuresFamily order read status] ++
    repoMetrics.map fun metric =>
      metric.repoFamily order read (asObject (status.get "repos".toList))

def families (status rebuild : Object) (heartbeat staleSeconds now : Int) : List Family :=
  familiesBy keys number status rebuild heartbeat (staleOf heartbeat staleSeconds now) now

/-- Each name of an object has its sample, with the name as it is in the label. -/
def Names (samples : List Sample) (metric labelName : String) (fields : Object)
    (value : Option Tree → Int) : Prop :=
  ∀ field ∈ fields,
    ⟨metric.toList, [(labelName.toList, field.1)], value (fields.get field.1)⟩ ∈ samples

/-- The text reads as the headers and samples of the families, with one header for each metric
and before its samples, with no series twice and with every name of the two objects. -/
structure Exposed (text : Line) (status : Object) (families : List Family) : Prop where
  parsed : Exposition.parse text = some (families.flatMap Family.entries)
  names : (families.map Family.name).Nodup
  series : ((families.flatMap Family.samples).map Sample.series).Nodup
  failures : Names (families.flatMap Family.samples) "gh_runner_jit_config_failures_total"
    "status" (asObject (status.get "jit_config_failures".toList)) number
  repos : ∀ metric ∈ repoMetrics, Names (families.flatMap Family.samples) metric.name "repo"
    (asObject (status.get "repos".toList)) fun info =>
      number ((asObject info).get metric.key.toList)

/-! ## What is printed -/

theorem labelEscaper_eq : labelEscaper = escape := rfl

theorem print_append (first rest : List Entry) :
    print (first ++ rest) = print first ++ print rest :=
  List.flatMap_append

theorem print_flatMap {α : Type} (items : List α) (entries : α → List Entry) :
    print (items.flatMap entries) = items.flatMap fun item => print (entries item) :=
  List.flatMap_assoc

theorem header_eq (name help : String) (kind : Kind) : header name help kind =
    print [.help name.toList help.toList, .type name.toList kind] := by
  have printed : print [.help name.toList help.toList, .type name.toList kind] =
      (("# HELP ".toList ++ name.toList ++ ' ' :: help.toList) ++ ['\n']) ++
        ((("# TYPE ".toList ++ name.toList ++ ' ' :: kind.text) ++ ['\n']) ++ []) := rfl
  have written : header name help kind = "# HELP ".toList ++ name.toList ++ ' ' :: help.toList ++
      '\n' :: "# TYPE ".toList ++ name.toList ++ ' ' :: kind.text ++ ['\n'] := rfl
  rw [printed, written]
  generalize "# HELP ".toList = first
  generalize "# TYPE ".toList = second
  simp only [List.append_assoc, List.cons_append, List.nil_append, List.append_nil]

theorem sampleLine_eq (name : String) (labels : List (Line × Line)) (value : Int) :
    sampleLine name (labelText labels) value = print [.sample ⟨name.toList, labels, value⟩] := by
  have printed : print [.sample ⟨name.toList, labels, value⟩] =
      (name.toList ++ labelText labels ++ ' ' :: decimal value) ++ ['\n'] ++ [] := rfl
  rw [printed, sampleLine, List.append_nil]

theorem labelSet_eq (name : String) (value : Line) :
    labelSet name value = labelText [(name.toList, value)] := by
  rw [labelText, if_neg (by simp), labelSet, label, labelEscaper_eq]
  simp [pairsText, pairText]

theorem print_entries (family : Family) : print family.entries =
    header family.name family.help family.kind ++ print (family.samples.map .sample) := by
  rw [header_eq, ← print_append]
  rfl

theorem emit_eq (name help : String) (kind : Kind) (value : Int) (labels : List (Line × Line)) :
    emit name help kind value (labelText labels) =
      print (Family.entries ⟨name, help, kind, [(labels, value)]⟩) := by
  rw [print_entries, emit, sampleLine_eq]
  rfl

theorem emit_single (name help : String) (kind : Kind) (value : Int) :
    emit name help kind value [] = print (single name help kind value).entries :=
  emit_eq name help kind value []

theorem keyed_eq (name help : String) (kind : Kind) (labelName : String) (fields : Object)
    (value : Option Tree → Int) :
    header name help kind ++ keyed name labelName fields value =
      print (Family.entries ⟨name, help, kind, keyedPoints keys labelName fields value⟩) := by
  rw [print_entries, Family.samples, keyed, keyedPoints]
  congr 1
  split
  · rw [labelSet_eq, sampleLine_eq]
    rfl
  · simp only [labelSet_eq, sampleLine_eq, List.map_map]
    rw [← print_flatMap, List.map_eq_flatMap]
    rfl

/-- The collector prints what is meant. -/
theorem render_eq (statusFile heartbeatFile : Option Line) (staleSeconds now : Int)
    (rebuildFile : Option Line) :
    render statusFile heartbeatFile staleSeconds now rebuildFile =
      print ((families (object statusFile) (object rebuildFile)
        (heartbeatOf heartbeatFile (object statusFile)) staleSeconds now).flatMap
          Family.entries) := by
  simp only [render, families, familiesBy, List.flatMap_append, List.flatMap_cons, List.flatMap_nil,
    List.append_nil, List.flatMap_map, print_append, print_flatMap, emit_single, labelSet_eq,
    emit_eq, List.append_assoc, keyed_eq]
  rfl

/-! ## What is read -/

/-- Keys are the names of the fields, each of them once. -/
theorem mem_keys {α : Type} {fields : List (Line × α)} {name : Line} :
    name ∈ keys fields ↔ ∃ value, (name, value) ∈ fields := by
  rw [keys, List.mem_mergeSort, List.mem_dedup, List.mem_map]
  constructor
  · rintro ⟨⟨own, value⟩, member, rfl⟩
    exact ⟨value, member⟩
  · rintro ⟨value, member⟩
    exact ⟨(name, value), member, rfl⟩

theorem nodup_keys {α : Type} (fields : List (Line × α)) : (keys fields).Nodup :=
  (List.mergeSort_perm _ _).nodup_iff.mpr (List.nodup_dedup _)

theorem names_keyed {families : List Family} {name help labelName : String} {kind : Kind}
    {fields : Object} {value : Option Tree → Int}
    (member : ⟨name, help, kind, keyedPoints keys labelName fields value⟩ ∈ families) :
    Names (families.flatMap Family.samples) name labelName fields value := by
  intro field inside
  have some_ : fields ≠ [] := List.ne_nil_of_mem inside
  have key : field.1 ∈ keys fields := mem_keys.mpr ⟨field.2, inside⟩
  have point : ([(labelName.toList, field.1)], value (fields.get field.1)) ∈
      keyedPoints keys labelName fields value := by
    rw [keyedPoints, if_neg some_]
    exact List.mem_map_of_mem key
  exact List.mem_flatMap.mpr ⟨_, member, List.mem_map_of_mem point⟩

section

variable {order : Object → List Line} (distinct : ∀ fields, (order fields).Nodup)

include distinct in
theorem nodup_keyedPoints (labelName : String) (fields : Object) (value : Option Tree → Int) :
    ((keyedPoints order labelName fields value).map Prod.fst).Nodup := by
  rw [keyedPoints]
  split
  · exact List.nodup_singleton _
  · rw [List.map_map]
    refine (distinct fields).map fun one other equal => ?_
    simpa using equal

theorem single_plain {name help : String} (kind : Kind) (value : Int)
    (named : Named isNameChar name.toList) (clear : Clear help.toList) :
    (single name help kind value).Plain where
  name := named
  help := clear
  labels := by simp [single]

theorem keyed_plain {name help labelName : String} (kind : Kind) (fields : Object)
    (value : Option Tree → Int) (named : Named isNameChar name.toList) (clear : Clear help.toList)
    (labelled : Named isLabelChar labelName.toList) :
    Family.Plain ⟨name, help, kind, keyedPoints order labelName fields value⟩ where
  name := named
  help := clear
  labels := by
    simp only [keyedPoints]
    split
    · simpa using labelled
    · intro point member
      rcases List.mem_map.mp member with ⟨key, _, rfl⟩
      simpa using labelled

/-- The table's names and texts can be written as they are. -/
def Metric.Plain (metric : Metric) : Prop :=
  Named isNameChar metric.name.toList ∧ Clear metric.help.toList

theorem statusMetrics_plain : ∀ metric ∈ statusMetrics, metric.Plain := by
  simp only [statusMetrics, List.forall_mem_cons, List.not_mem_nil, false_implies, implies_true,
    and_true]
  refine ⟨?_, ?_, ?_, ?_, ?_, ?_, ?_, ?_, ?_⟩ <;>
    exact ⟨named_literal rfl (by decide), clear_literal rfl (by decide)⟩

theorem rebuildMetrics_plain : ∀ metric ∈ rebuildMetrics, metric.Plain := by
  simp only [rebuildMetrics, List.forall_mem_cons, List.not_mem_nil, false_implies, implies_true,
    and_true]
  refine ⟨?_, ?_, ?_⟩ <;>
    exact ⟨named_literal rfl (by decide), clear_literal rfl (by decide)⟩

theorem repoMetrics_plain : ∀ metric ∈ repoMetrics, metric.Plain := by
  simp only [repoMetrics, List.forall_mem_cons, List.not_mem_nil, false_implies, implies_true,
    and_true]
  refine ⟨?_, ?_, ?_, ?_, ?_⟩ <;>
    exact ⟨named_literal rfl (by decide), clear_literal rfl (by decide)⟩

variable (order) (read : Option Tree → Int) (status rebuild : Object) (heartbeat stale now : Int)

theorem familiesBy_plain :
    ∀ family ∈ familiesBy order read status rebuild heartbeat stale now, family.Plain := by
  simp only [familiesBy, List.forall_mem_append, List.forall_mem_cons, List.forall_mem_map,
    List.not_mem_nil, false_implies, implies_true, and_true]
  refine ⟨⟨⟨⟨⟨⟨?_, ?_, ?_⟩, ?_⟩, ?_⟩, ?_⟩, ?_⟩, ?_⟩
  · exact single_plain _ _ (named_literal rfl (by decide)) (clear_literal rfl (by decide))
  · exact single_plain _ _ (named_literal rfl (by decide)) (clear_literal rfl (by decide))
  · exact single_plain _ _ (named_literal rfl (by decide)) (clear_literal rfl (by decide))
  · exact fun metric member => single_plain _ _ (statusMetrics_plain metric member).1
      (statusMetrics_plain metric member).2
  · exact
      { name := named_literal rfl (by decide)
        help := clear_literal rfl (by decide)
        labels := by
          have version : Named isLabelChar "version".toList := named_literal rfl (by decide)
          simpa [versionFamily] using version }
  · exact fun metric member => single_plain _ _ (rebuildMetrics_plain metric member).1
      (rebuildMetrics_plain metric member).2
  · exact keyed_plain _ _ _ (named_literal rfl (by decide)) (clear_literal rfl (by decide))
      (named_literal rfl (by decide))
  · exact fun metric member => keyed_plain _ _ _ (repoMetrics_plain metric member).1
      (repoMetrics_plain metric member).2 (named_literal rfl (by decide))

theorem failuresFamily_mem : failuresFamily order read status ∈
    familiesBy order read status rebuild heartbeat stale now :=
  List.mem_append_left _ (List.mem_append_right _ (List.mem_singleton_self _))

theorem repoFamily_mem {metric : Metric} (member : metric ∈ repoMetrics) :
    metric.repoFamily order read (asObject (status.get "repos".toList)) ∈
      familiesBy order read status rebuild heartbeat stale now :=
  List.mem_append_right _ (List.mem_map_of_mem member)

theorem familiesBy_nodup :
    ((familiesBy order read status rebuild heartbeat stale now).map Family.name).Nodup := by
  simp [familiesBy, statusMetrics, rebuildMetrics, repoMetrics, single, Metric.family,
    Metric.repoFamily, versionFamily, failuresFamily]

include distinct in
theorem points_nodup : ∀ family ∈ familiesBy order read status rebuild heartbeat stale now,
    (family.points.map Prod.fst).Nodup := by
  simp only [familiesBy, List.forall_mem_append, List.forall_mem_cons, List.forall_mem_map,
    List.not_mem_nil, false_implies, implies_true, and_true]
  refine ⟨⟨⟨⟨⟨⟨?_, ?_, ?_⟩, ?_⟩, ?_⟩, ?_⟩, ?_⟩, ?_⟩
  · exact List.nodup_singleton _
  · exact List.nodup_singleton _
  · exact List.nodup_singleton _
  · exact fun metric _ => List.nodup_singleton _
  · exact List.nodup_singleton _
  · exact fun metric _ => List.nodup_singleton _
  · exact nodup_keyedPoints distinct _ _ _
  · intro metric _
    exact nodup_keyedPoints distinct "repo" (asObject (status.get "repos".toList)) fun info =>
      read ((asObject info).get metric.key.toList)

end

/-- Whatever the files hold, the rendered text reads as the metrics that were meant. -/
theorem render_exposed (statusFile heartbeatFile : Option Line) (staleSeconds now : Int)
    (rebuildFile : Option Line) :
    Exposed (render statusFile heartbeatFile staleSeconds now rebuildFile) (object statusFile)
      (families (object statusFile) (object rebuildFile)
        (heartbeatOf heartbeatFile (object statusFile)) staleSeconds now) := by
  rw [render_eq]
  exact
    { parsed := parse_families (familiesBy_plain _ _ _ _ _ _ _)
      names := familiesBy_nodup _ _ _ _ _ _ _
      series := nodup_series (familiesBy_nodup _ _ _ _ _ _ _)
        (points_nodup _ nodup_keys _ _ _ _ _ _)
      failures := names_keyed (failuresFamily_mem _ _ _ _ _ _ _)
      repos := fun _ member => names_keyed (repoFamily_mem _ _ _ _ _ _ _ member) }

end Homelab.RunnerMetrics
