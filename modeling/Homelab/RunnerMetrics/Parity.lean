import Homelab.RunnerMetrics.Rendering
import Homelab.RunnerMetrics.Staleness

/-! # The two collectors

The Go collector shows what the Python collector shows, unless the interpreter runs out of its
stack, a text has too many digits for it, or the age of the heartbeat leaves 64 bits.
-/

namespace Homelab.RunnerMetrics

open Text GoText GoJson Exposition Python

/-! ## The same metrics -/

/-- Both texts can be read, and show the same samples of metrics of the same types. -/
def Same (one other : Line) : Prop :=
  ∃ shown shown', Exposition.parse one = some shown ∧ Exposition.parse other = some shown' ∧
    (∀ sample, .sample sample ∈ shown ↔ .sample sample ∈ shown') ∧
    ∀ metric kind, .type metric kind ∈ shown ↔ .type metric kind ∈ shown'

structure Alike (one other : Family) : Prop where
  name : one.name = other.name
  kind : one.kind = other.kind
  points : ∀ point, point ∈ one.points ↔ point ∈ other.points

theorem mem_samples {families : List Family} {sample : Sample} :
    .sample sample ∈ families.flatMap Family.entries ↔ ∃ family ∈ families,
      sample.metric = family.name.toList ∧ (sample.labels, sample.value) ∈ family.points := by
  simp only [List.mem_flatMap, Family.entries, Family.samples, List.map_map, List.mem_cons,
    reduceCtorEq, false_or, List.mem_map, Function.comp_apply, Entry.sample.injEq]
  constructor
  · rintro ⟨family, member, point, own, rfl⟩
    exact ⟨family, member, rfl, own⟩
  · rintro ⟨family, member, named, own⟩
    refine ⟨family, member, _, own, ?_⟩
    rw [← named]

theorem mem_types {families : List Family} {metric : Line} {kind : Kind} :
    .type metric kind ∈ families.flatMap Family.entries ↔
      ∃ family ∈ families, metric = family.name.toList ∧ kind = family.kind := by
  simp [List.mem_flatMap, Family.entries]

section

variable {families families' : List Family}

theorem same_of_alike (plain : ∀ family ∈ families, family.Plain)
    (plain' : ∀ family ∈ families', family.Plain)
    (covered : ∀ family ∈ families, ∃ other ∈ families', Alike family other)
    (covers : ∀ other ∈ families', ∃ family ∈ families, Alike other family) :
    Same (print (families.flatMap Family.entries)) (print (families'.flatMap Family.entries)) := by
  refine ⟨_, _, parse_families plain, parse_families plain', fun sample => ?_,
    fun metric kind => ?_⟩
  · rw [mem_samples, mem_samples]
    constructor
    · rintro ⟨family, member, named, own⟩
      rcases covered family member with ⟨other, otherMember, alike⟩
      exact ⟨other, otherMember, alike.name ▸ named, (alike.points _).mp own⟩
    · rintro ⟨other, member, named, own⟩
      rcases covers other member with ⟨family, familyMember, alike⟩
      exact ⟨family, familyMember, alike.name ▸ named, (alike.points _).mp own⟩
  · rw [mem_types, mem_types]
    constructor
    · rintro ⟨family, member, named, same⟩
      rcases covered family member with ⟨other, otherMember, alike⟩
      exact ⟨other, otherMember, alike.name ▸ named, alike.kind ▸ same⟩
    · rintro ⟨other, member, named, same⟩
      rcases covers other member with ⟨family, familyMember, alike⟩
      exact ⟨family, familyMember, alike.name ▸ named, alike.kind ▸ same⟩

/-- Metrics of the same name show the same points. -/
theorem points_of_same (plain : ∀ family ∈ families, family.Plain)
    (plain' : ∀ family ∈ families', family.Plain)
    (names : (families.map Family.name).Nodup) (names' : (families'.map Family.name).Nodup)
    (same : Same (print (families.flatMap Family.entries))
      (print (families'.flatMap Family.entries)))
    {family other : Family} (member : family ∈ families) (otherMember : other ∈ families')
    (named : family.name = other.name) (point : Point) :
    point ∈ family.points ↔ point ∈ other.points := by
  rcases same with ⟨shown, shown', parsed, parsed', samples, _⟩
  rw [parse_families plain] at parsed
  rw [parse_families plain'] at parsed'
  cases parsed
  cases parsed'
  have own := samples ⟨family.name.toList, point.1, point.2⟩
  rw [mem_entries names member rfl, mem_entries names' otherMember (congrArg String.toList named)]
    at own
  simpa [Family.samples, named] using own

end

/-! ## Two readings of the same files -/

/-- What holds of all fields that are numbers, but for the heartbeat. -/
structure EachField (holds : Option Tree → Prop) (status rebuild : Object) : Prop where
  metrics : ∀ metric ∈ statusMetrics, holds (status.get metric.key.toList)
  rebuild : ∀ metric ∈ rebuildMetrics, holds (rebuild.get metric.key.toList)
  failures : let failures := asObject (status.get "jit_config_failures".toList)
    ∀ key ∈ keys failures, holds (failures.get key)
  repos : let repos := asObject (status.get "repos".toList)
    ∀ key ∈ keys repos, ∀ metric ∈ repoMetrics,
      holds ((asObject (repos.get key)).get metric.key.toList)

theorem EachField.imp {holds holds' : Option Tree → Prop} {status rebuild : Object}
    (each : EachField holds status rebuild) (weaker : ∀ field, holds field → holds' field) :
    EachField holds' status rebuild where
  metrics metric member := weaker _ (each.metrics metric member)
  rebuild metric member := weaker _ (each.rebuild metric member)
  failures key member := weaker _ (each.failures key member)
  repos key member metric own := weaker _ (each.repos key member metric own)

section

variable {order order' : Object → List Line} {read read' : Option Tree → Int}
  {status rebuild : Object}

theorem mem_keyedPoints (listed : ∀ fields key, key ∈ order fields ↔ key ∈ keys fields)
    (labelName : String) (fields : Object) (value : Option Tree → Int) (point : Point) :
    point ∈ keyedPoints order labelName fields value ↔
      fields = [] ∧ point = ([(labelName.toList, "none".toList)], 0) ∨
        ∃ key ∈ keys fields, point = ([(labelName.toList, key)], value (fields.get key)) := by
  rw [keyedPoints]
  split
  · next none =>
      subst none
      simp [keys]
  · next some_ =>
      simp only [some_, false_and, false_or, List.mem_map, listed]
      constructor
      · rintro ⟨key, member, rfl⟩
        exact ⟨key, member, rfl⟩
      · rintro ⟨key, member, rfl⟩
        exact ⟨key, member, rfl⟩

/-- Both show the same points for the keys exactly if they agree on each value. -/
theorem keyedPoints_iff (listed : ∀ fields key, key ∈ order fields ↔ key ∈ keys fields)
    (listed' : ∀ fields key, key ∈ order' fields ↔ key ∈ keys fields)
    (labelName : String) (fields : Object) (value value' : Option Tree → Int) :
    (∀ point, point ∈ keyedPoints order labelName fields value ↔
        point ∈ keyedPoints order' labelName fields value') ↔
      ∀ key ∈ keys fields, value (fields.get key) = value' (fields.get key) := by
  constructor
  · intro same key member
    have shown : ([(labelName.toList, key)], value (fields.get key)) ∈
        keyedPoints order' labelName fields value' :=
      (same _).mp ((mem_keyedPoints listed _ _ _ _).mpr (.inr ⟨key, member, rfl⟩))
    rcases (mem_keyedPoints listed' _ _ _ _).mp shown with ⟨none, _⟩ | ⟨key', _, equal⟩
    · subst none
      cases (mem_keys.mp member).choose_spec
    · simp only [Prod.mk.injEq, List.cons.injEq, and_true, true_and] at equal
      rw [equal.2, ← equal.1]
  · intro same point
    rw [mem_keyedPoints listed, mem_keyedPoints listed']
    refine or_congr Iff.rfl (exists_congr fun key => and_congr_right fun member => ?_)
    rw [same key member]

theorem alike_self (family : Family) : Alike family family := ⟨rfl, rfl, fun _ => Iff.rfl⟩

theorem single_alike {name help : String} {kind : Kind} {value value' : Int}
    (same : value = value') :
    Alike (single name help kind value) (single name help kind value') := by
  subst same
  exact alike_self _

variable (listed : ∀ fields key, key ∈ order fields ↔ key ∈ keys fields)
  (listed' : ∀ fields key, key ∈ order' fields ↔ key ∈ keys fields)
include listed listed'

theorem repoFamily_iff (metric : Metric) (repos : Object) :
    (∀ point, point ∈ (metric.repoFamily order read repos).points ↔
        point ∈ (metric.repoFamily order' read' repos).points) ↔
      ∀ key ∈ keys repos, read ((asObject (repos.get key)).get metric.key.toList) =
        read' ((asObject (repos.get key)).get metric.key.toList) :=
  keyedPoints_iff listed listed' "repo" repos
    (fun info => read ((asObject info).get metric.key.toList))
    (fun info => read' ((asObject info).get metric.key.toList))

theorem familiesBy_alike (each : EachField (fun field => read field = read' field) status rebuild)
    (heartbeat stale now : Int) :
    ∀ family ∈ familiesBy order read status rebuild heartbeat stale now,
      ∃ other ∈ familiesBy order' read' status rebuild heartbeat stale now, Alike family other := by
  simp only [familiesBy, List.mem_append, List.mem_cons, List.not_mem_nil, or_false,
    List.mem_map]
  rintro family ((((((rfl | rfl | rfl) | ⟨metric, member, rfl⟩) | rfl) | ⟨metric, member, rfl⟩) |
    rfl) | ⟨metric, member, rfl⟩)
  · exact ⟨_, by simp, alike_self _⟩
  · exact ⟨_, by simp, alike_self _⟩
  · exact ⟨_, by simp, alike_self _⟩
  · exact ⟨metric.family read' status, .inl (.inl (.inl (.inl (.inr ⟨metric, member, rfl⟩)))),
      single_alike (each.metrics metric member)⟩
  · exact ⟨_, by simp, alike_self _⟩
  · exact ⟨metric.family read' rebuild, .inl (.inl (.inr ⟨metric, member, rfl⟩)),
      single_alike (each.rebuild metric member)⟩
  · exact ⟨failuresFamily order' read' status, .inl (.inr rfl), rfl, rfl,
      (keyedPoints_iff listed listed' _ _ _ _).mpr each.failures⟩
  · exact ⟨metric.repoFamily order' read' _, .inr ⟨metric, member, rfl⟩, rfl, rfl,
      (repoFamily_iff listed listed' metric _).mpr fun key own => each.repos key own metric member⟩

/-- Two readings show the same exactly if they agree on the heartbeat and each other number. -/
theorem same_familiesBy_iff (heartbeat heartbeat' stale stale' now : Int) :
    Same (print ((familiesBy order read status rebuild heartbeat stale now).flatMap Family.entries))
        (print ((familiesBy order' read' status rebuild heartbeat' stale' now).flatMap
          Family.entries)) ↔
      heartbeat = heartbeat' ∧ stale = stale' ∧
        EachField (fun field => read field = read' field) status rebuild := by
  constructor
  · intro same
    have points : ∀ {family other},
        family ∈ familiesBy order read status rebuild heartbeat stale now →
        other ∈ familiesBy order' read' status rebuild heartbeat' stale' now →
        family.name = other.name → ∀ point, point ∈ family.points ↔ point ∈ other.points :=
      fun member member' named => points_of_same (familiesBy_plain _ _ _ _ _ _ _)
        (familiesBy_plain _ _ _ _ _ _ _) (familiesBy_nodup _ _ _ _ _ _ _)
        (familiesBy_nodup _ _ _ _ _ _ _) same member member' named
    have value : ∀ {name help kind value value'},
        single name help kind value ∈ familiesBy order read status rebuild heartbeat stale now →
        single name help kind value' ∈
          familiesBy order' read' status rebuild heartbeat' stale' now → value = value' := by
      intro name help kind value value' member member'
      have own := (points member member' rfl ([], value)).mp (List.mem_singleton.mpr rfl)
      exact (Prod.mk.inj (List.mem_singleton.mp own)).2
    simp only [familiesBy, List.mem_append, List.mem_cons, List.not_mem_nil, or_false,
      List.mem_map] at points value
    have sameHeartbeat : heartbeat = heartbeat' :=
      value (.inl (.inl (.inl (.inl (.inl (.inr (.inl rfl)))))))
        (.inl (.inl (.inl (.inl (.inl (.inr (.inl rfl)))))))
    have sameStale : stale = stale' :=
      value (.inl (.inl (.inl (.inl (.inl (.inr (.inr rfl)))))))
        (.inl (.inl (.inl (.inl (.inl (.inr (.inr rfl)))))))
    refine ⟨sameHeartbeat, sameStale, ?_⟩
    constructor
    · intro metric member
      exact value (.inl (.inl (.inl (.inl (.inr ⟨metric, member, rfl⟩)))))
        (.inl (.inl (.inl (.inl (.inr ⟨metric, member, rfl⟩)))))
    · intro metric member
      exact value (.inl (.inl (.inr ⟨metric, member, rfl⟩)))
        (.inl (.inl (.inr ⟨metric, member, rfl⟩)))
    · exact (keyedPoints_iff listed listed' "status" _ _ _).mp
        (points (.inl (.inr rfl)) (.inl (.inr rfl)) rfl)
    · intro repos key own metric member
      have shown := points (.inr ⟨metric, member, rfl⟩) (.inr ⟨metric, member, rfl⟩) rfl
      exact (repoFamily_iff listed listed' metric repos).mp shown key own
  · rintro ⟨rfl, rfl, each⟩
    have back := each.imp fun field equal => Eq.symm equal
    exact same_of_alike (familiesBy_plain _ _ _ _ _ _ _) (familiesBy_plain _ _ _ _ _ _ _)
      (familiesBy_alike listed listed' each _ _ _) (familiesBy_alike listed' listed back _ _ _)

end

/-! ## Where they agree -/

/-- Both take the same heartbeat: that of the file, if it is no text that is too long, or else
that of the status. -/
structure SameHeartbeat (file status : Option Tree) : Prop where
  first : ¬Counts file → Counts status ∧ number status = number file
  fallback : number file = 0 → Counts status

/-- An age that leaves 64 bits is compared as it is. -/
structure SameAge (heartbeat staleSeconds now : Int) : Prop where
  old : 2 ^ 63 ≤ now - heartbeat → staleSeconds < now - heartbeat - 2 ^ 64
  young : now - heartbeat < -2 ^ 63 → now - heartbeat + 2 ^ 64 ≤ staleSeconds

theorem counted_of_not {field : Option Tree} (long : ¬Counts field) :
    counted field = 0 ∧ number field ≠ 0 := by
  have some_ : number field ≠ 0 := by
    intro none
    exact long fun _ _ _ => none
  refine ⟨?_, some_⟩
  simp only [Counts, not_forall] at long
  rcases long with ⟨text, rfl, long, _⟩
  rw [counted, if_pos long]

theorem sameHeartbeat_iff (file status : Option Tree) :
    firstOf (number file) (number status) = firstOf (counted file) (counted status) ↔
      SameHeartbeat file status := by
  by_cases fileCounts : Counts file
  · rw [← (counted_iff file).mpr fileCounts, firstOf, firstOf]
    by_cases none : number file = 0
    · rw [if_neg (by simpa using none), if_neg (by simpa using none), counted_iff]
      exact ⟨fun counts => ⟨fun long => absurd fileCounts long, fun _ => counts⟩,
        fun same => same.fallback none⟩
    · rw [if_pos none, if_pos none]
      exact iff_of_true rfl
        ⟨fun long => absurd fileCounts long, fun equal => absurd equal none⟩
  · rcases counted_of_not fileCounts with ⟨unread, some_⟩
    rw [unread, firstOf, firstOf, if_pos some_, if_neg (by decide)]
    constructor
    · intro same
      by_cases counts : Counts status
      · rw [← (counted_iff status).mpr counts] at same
        exact ⟨fun _ => ⟨counts, same.symm⟩, fun none => absurd none some_⟩
      · rw [(counted_of_not counts).1] at same
        exact absurd same some_
    · intro same
      rcases same.first fileCounts with ⟨counts, equal⟩
      rw [← (counted_iff status).mpr counts, equal]

theorem number_fits (field : Option Tree) : InInt64 (number field) := by
  have read : ∀ {read : Option Int}, (∀ value ∈ read, InInt64 value) → InInt64 (read.getD 0) := by
    intro read fits
    cases read with
    | none => decide
    | some value => exact fits value rfl
  by_cases outside : ∃ text, field = some (.str text) ∧ OutOfRange text
  · rcases outside with ⟨text, rfl, outside⟩
    rcases number_text text with ⟨_, _, ends⟩ | ⟨inside, _⟩
    · rcases ends with same | same
      · rw [same]
        decide
      · rw [same]
        decide
    · exact absurd outside inside
  · rcases number_readInteger field fun text same out => outside ⟨text, same, out⟩ with ⟨same, fits⟩
    rw [same]
    exact read fits

theorem firstOf_fits (file status : Option Tree) :
    InInt64 (firstOf (number file) (number status)) := by
  rw [firstOf]
  split
  · exact number_fits file
  · exact number_fits status

theorem staleOf_agedOf_iff {heartbeat staleSeconds now : Int} (fits : InInt64 heartbeat)
    (threshold : InInt64 staleSeconds) (clock : InInt64 now) :
    staleOf heartbeat staleSeconds now = agedOf heartbeat staleSeconds now ↔
      heartbeat = 0 ∨ SameAge heartbeat staleSeconds now := by
  rcases fits with ⟨low, high⟩
  rcases threshold with ⟨least, most⟩
  rcases clock with ⟨early, late⟩
  have ages : SameAge heartbeat staleSeconds now ↔
      (2 ^ 63 ≤ now - heartbeat → staleSeconds < now - heartbeat - 2 ^ 64) ∧
        (now - heartbeat < -2 ^ 63 → now - heartbeat + 2 ^ 64 ≤ staleSeconds) :=
    ⟨fun same => ⟨same.old, same.young⟩, fun same => ⟨same.1, same.2⟩⟩
  rw [ages, staleOf, agedOf, wrap, Int.bmod_def]
  by_cases none : heartbeat = 0
  · simp [none]
  · simp only [none, false_or]
    split <;> split <;> split <;> omega

theorem heartbeatOf_eq (file : Option Line) (status : Object) :
    heartbeatOf file status = firstOf (number (some (.str (runes (file.getD [])))))
      (number (status.get "supervisor_heartbeat_ts".toList)) := by
  rw [heartbeatOf, firstOf]
  by_cases none : number (some (.str (runes (file.getD [])))) = 0
  · rw [if_pos none, if_neg (by simpa using none)]
  · rw [if_neg none, if_pos none]

/-- Python reads both files, and no number is too long for it, nor the age of the heartbeat for
Go. -/
structure Comparable (python : Reference.Interpreter) (statusFile heartbeatFile rebuildFile :
    Option Line) (status rebuild : Object) (staleSeconds now : Int) : Prop where
  statusRead : ¬GivesUp python statusFile
  rebuildRead : ¬GivesUp python rebuildFile
  numbers : EachField Counts status rebuild
  heartbeat : SameHeartbeat (some (.str (runes (heartbeatFile.getD []))))
    (status.get "supervisor_heartbeat_ts".toList)
  age : heartbeatOf heartbeatFile status = 0 ∨
    SameAge (heartbeatOf heartbeatFile status) staleSeconds now

section

variable {python : Reference.Interpreter} {statusFile heartbeatFile rebuildFile : Option Line}
  {statusTree rebuildTree : Option Tree}

theorem same_iff (statusContent : Content python statusFile statusTree)
    (rebuildContent : Content python rebuildFile rebuildTree)
    (heartbeatDomain : HeartbeatFile heartbeatFile)
    (statusFields : StatusFields (asObject statusTree))
    (rebuildFields : RebuildFields (asObject rebuildTree)) {staleSeconds now : Int}
    (threshold : InInt64 staleSeconds) (clock : InInt64 now) :
    (∃ text, Reference.render python statusFile heartbeatFile staleSeconds now rebuildFile =
          .ok text ∧
        Same (render statusFile heartbeatFile staleSeconds now rebuildFile) text) ↔
      Comparable python statusFile heartbeatFile rebuildFile (asObject statusTree)
        (asObject rebuildTree) staleSeconds now := by
  by_cases reads : ¬GivesUp python statusFile ∧ ¬GivesUp python rebuildFile
  · have rendered := reference_eq statusContent rebuildContent reads.1 reads.2 heartbeatDomain
      statusFields rebuildFields staleSeconds now
    have statusRead := (statusContent.read reads.1).2
    have rebuildRead := (rebuildContent.read reads.2).2
    simp only [rendered, Except.ok.injEq, exists_eq_left', render_eq, families, statusRead,
      rebuildRead]
    rw [same_familiesBy_iff (fun _ _ => Iff.rfl) (fun _ _ => mem_dictKeys)]
    simp only [counted_iff, heartbeatOf_eq, sameHeartbeat_iff]
    have age := staleOf_agedOf_iff (firstOf_fits (some (.str (runes (heartbeatFile.getD []))))
      ((asObject statusTree).get "supervisor_heartbeat_ts".toList)) threshold clock
    constructor
    · rintro ⟨same, stale, numbers⟩
      rw [← (sameHeartbeat_iff _ _).mpr same, age, ← heartbeatOf_eq] at stale
      exact ⟨reads.1, reads.2, numbers, same, stale⟩
    · intro comparable
      have stale := comparable.age
      rw [heartbeatOf_eq, ← age, (sameHeartbeat_iff _ _).mpr comparable.heartbeat] at stale
      rw [(sameHeartbeat_iff _ _).mpr comparable.heartbeat]
      exact ⟨comparable.heartbeat, stale, comparable.numbers⟩
  · constructor
    · rintro ⟨text, rendered, _⟩
      exact absurd (render_reads rendered) reads
    · intro comparable
      exact absurd ⟨comparable.statusRead, comparable.rebuildRead⟩ reads

/-- Where the Go collector shows the samples and types that the Python collector shows. -/
theorem render_same_iff (statusContent : Content python statusFile statusTree)
    (rebuildContent : Content python rebuildFile rebuildTree)
    (heartbeatDomain : HeartbeatFile heartbeatFile)
    (statusFields : StatusFields (asObject statusTree))
    (rebuildFields : RebuildFields (asObject rebuildTree)) {staleSeconds now : Int}
    (threshold : InInt64 staleSeconds) (clock : InInt64 now) :
    (∃ text, Reference.render python statusFile heartbeatFile staleSeconds now rebuildFile =
          .ok text ∧
        Same (render statusFile heartbeatFile staleSeconds now rebuildFile) text) ↔
      Comparable python statusFile heartbeatFile rebuildFile (asObject statusTree)
        (asObject rebuildTree) staleSeconds now :=
  same_iff statusContent rebuildContent heartbeatDomain statusFields rebuildFields threshold clock

end

/-! ## Examples -/

def usual : Reference.Interpreter := ⟨1000, fun _ => [], by decide⟩

theorem statusFields_nil : StatusFields [] where
  heartbeat := trivial
  metrics := fun _ _ => trivial
  version := fun _ present => by cases present
  failures := fun _ member => by cases (mem_keys.mp member).choose_spec
  repos := fun _ member => by cases (mem_keys.mp member).choose_spec

theorem statusFields_numeral {name : Line} {numeral : Numeral} (small : SmallNumeral numeral)
    (other : name ≠ "runner_version".toList) : StatusFields [(name, .number numeral)] := by
  have numeric : ∀ own, NumericField (Object.get [(name, .number numeral)] own) := by
    intro own
    simp only [Object.get, List.reverse_singleton, List.lookup_cons, List.lookup_nil]
    split
    · exact small
    · trivial
  have empty : ∀ own, asObject (Object.get [(name, .number numeral)] own) = [] := by
    intro own
    simp only [Object.get, List.reverse_singleton, List.lookup_cons, List.lookup_nil]
    split
    · rfl
    · rfl
  exact
    { heartbeat := numeric _
      metrics := fun _ _ => numeric _
      version := by
        intro tree present
        have differs : ("runner_version".toList == name) = false :=
          beq_eq_false_iff_ne.mpr other.symm
        simp only [Object.get, List.reverse_singleton, List.lookup_cons, List.lookup_nil,
          differs] at present
        cases present
      failures := by
        intro failures key member
        rw [show failures = [] from empty _] at member
        cases (mem_keys.mp member).choose_spec
      repos := by
        intro repos key member
        rw [show repos = [] from empty _] at member
        cases (mem_keys.mp member).choose_spec }

/-- `{"jobs_total":7}`. -/
def jobsFile : Line := ['\x7b', '"', 'j', 'o', 'b', 's', '_', 't', 'o', 't', 'a', 'l', '"', ':',
  '7', '\x7d']

def seven : Numeral := ⟨['7'], false, ['7'], none, none⟩

def jobsTree : Tree := .dict [(['j', 'o', 'b', 's', '_', 't', 'o', 't', 'a', 'l'], .number seven)]

theorem seven_small : SmallNumeral seven := by
  have exact_ : seven.exact = 7 := by
    norm_num [seven, Numeral.exact, Numeral.sign, show Json.natOf ['7'] = 7 from rfl]
  rw [SmallNumeral, exact_]
  norm_num

/-- Seven jobs, and a heartbeat of a hundred seconds ago. -/
theorem render_same_iff_jobs :
    (∃ text, Reference.render usual (some jobsFile) (some ['1', '0', '0', '\n']) 600 200 none =
          .ok text ∧
        Same (render (some jobsFile) (some ['1', '0', '0', '\n']) 600 200 none) text) ↔
      Comparable usual (some jobsFile) (some ['1', '0', '0', '\n']) none
        (asObject (some jobsTree)) (asObject none) 600 200 := by
  have decimal : Decimal ['1', '0', '0', '\n'] 100 :=
    ⟨[], [], ['1', '0', '0'], ['\n'], by decide⟩
  have domain : HeartbeatFile (some ['1', '0', '0', '\n']) := by
    intro data member
    cases member
    exact ⟨_, rfl, .inr ⟨100, decimal, by decide⟩⟩
  have small : Small jobsTree := ⟨seven_small, trivial⟩
  have parsed : parseWithin 1 jobsFile = some jobsTree := rfl
  have other : ['j', 'o', 'b', 's', '_', 't', 'o', 't', 'a', 'l'] ≠ "runner_version".toList := by
    decide
  exact render_same_iff (.value rfl parsed small) .absent domain
    (statusFields_numeral seven_small other) (fun _ _ => trivial) (by decide) (by decide)

/-- -2^61. -/
def earlyText : Line := '-' :: "2305843009213693952".toList

/-- A heartbeat so long ago that its age leaves 64 bits: Python finds it stale. -/
theorem render_early_differs : HeartbeatFile (some earlyText) ∧
    ¬∃ text, Reference.render usual none (some earlyText) 600 (2 ^ 63 - 1) none = .ok text ∧
      Same (render none (some earlyText) 600 (2 ^ 63 - 1) none) text := by
  have decimal : Decimal earlyText (-2 ^ 61) :=
    ⟨[], ['-'], "2305843009213693952".toList, [], by decide⟩
  have domain : HeartbeatFile (some earlyText) := by
    intro data member
    cases member
    exact ⟨earlyText, by decide, .inr ⟨-2 ^ 61, decimal, by decide⟩⟩
  refine ⟨domain, ?_⟩
  rw [same_iff .absent .absent domain statusFields_nil (fun _ _ => trivial) (by decide) (by decide)]
  intro comparable
  have heartbeat : heartbeatOf (some earlyText) [] = -2 ^ 61 := by
    rw [heartbeatOf_eq, Option.getD_some, runes_decode (show Utf8.decode earlyText = some earlyText
      by decide), number_decimal decimal (by decide)]
    rfl
  have age := comparable.age
  rw [show asObject none = [] from rfl, heartbeat] at age
  rcases age with zero | same
  · cases zero
  · exact absurd (same.old (by decide)) (by decide)

end Homelab.RunnerMetrics
