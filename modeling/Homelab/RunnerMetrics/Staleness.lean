import Homelab.RunnerMetrics.Samples

/-! # When a heartbeat is stale

The age of the heartbeat is a 64-bit number, and a number that is too long for 64 bits is read
as the last one that is not.
-/

namespace Homelab.RunnerMetrics

open Text GoText GoJson Exposition

/-! ## What staleness means -/

/-- A text that is an integer in the range of `int64`. -/
def readText (text : Line) : Option Int :=
  match parseInt (trimSpace text) with
  | .number value => some value
  | _ => none

/-- A value that can be read as an integer. The part after the point is dropped. -/
def readInteger : Option Tree → Option Int
  | some (.bool value) => some (if value then 1 else 0)
  | some (.str text) => readText text
  | some (.number numeral) =>
      match numeral.int64 with
      | some value => some value
      | none => (numeral.float64.filter fun value =>
          decide (value < 2 ^ 63 ∧ -2 ^ 63 ≤ value)).map Python.trunc
  | _ => none

/-- A heartbeat that is not 0, which says that there is none. -/
def nonzero (heartbeat : Option Int) : Option Int := heartbeat.filter (· ≠ 0)

def judged (staleSeconds now : Int) : Option Int → Int
  | none => 1
  | some heartbeat => if staleSeconds < now - heartbeat then 1 else 0

/-- The heartbeat of the file counts, or else that of the status. -/
def staleness (file status : Option Int) (staleSeconds now : Int) : Int :=
  judged staleSeconds now ((nonzero file).or (nonzero status))

/-- The text is a number that leaves the range of `int64`. -/
def OutOfRange (text : Line) : Prop := ∃ last, parseInt (trimSpace text) = .rangeError last

/-- Where the age of a heartbeat is compared as it is: no text that counts leaves the range,
nor does the age, or the status has a heartbeat that is not too old. -/
structure Compared (file : Line) (status : Option Tree) (staleSeconds now : Int) : Prop where
  outside : OutOfRange file → ∃ value ∈ nonzero (readInteger status), now - value ≤ staleSeconds
  age : ∀ value ∈ nonzero (readText file), now - value < 2 ^ 63
  fallback : ¬OutOfRange file → nonzero (readText file) = none →
    (∀ text, status = some (.str text) → ¬OutOfRange text) ∧
      ∀ value ∈ nonzero (readInteger status), now - value < 2 ^ 63

/-- The text shows the metric with the value, and with no other one. -/
def Shows (text : Line) (metric : String) (value : Int) : Prop :=
  ∃ entries, Exposition.parse text = some entries ∧
    ∀ shown, .sample ⟨metric.toList, [], shown⟩ ∈ entries ↔ shown = value

/-! ## Numbers -/

theorem number_text (text : Line) :
    (OutOfRange text ∧ readText text = none ∧
      (number (some (.str text)) = 2 ^ 63 - 1 ∨ number (some (.str text)) = -2 ^ 63)) ∨
    (¬OutOfRange text ∧ number (some (.str text)) = (readText text).getD 0 ∧
      ∀ value ∈ readText text, InInt64 value) := by
  rw [OutOfRange, number, readText]
  cases parsed : parseInt (trimSpace text) with
  | number value =>
      right
      refine ⟨by simp, rfl, fun own member => ?_⟩
      cases member
      exact GoText.parseInt_number parsed
  | syntaxError => exact .inr ⟨by simp, rfl, by simp⟩
  | rangeError last => exact .inl ⟨⟨last, rfl⟩, rfl, parseInt_range parsed⟩

/-- Every value but a text that leaves the range counts as what it is read as. -/
theorem number_readInteger (tree : Option Tree)
    (inside : ∀ text, tree = some (.str text) → ¬OutOfRange text) :
    number tree = (readInteger tree).getD 0 ∧ ∀ value ∈ readInteger tree, InInt64 value := by
  rcases tree with _ | tree
  · exact ⟨rfl, by simp [readInteger]⟩
  cases tree with
  | bool value =>
      refine ⟨rfl, fun own member => ?_⟩
      cases value <;> cases member <;> decide
  | str text =>
      rcases number_text text with ⟨outside, _⟩ | ⟨_, same⟩
      · exact absurd outside (inside text rfl)
      · exact same
  | number numeral =>
      cases whole : numeral.int64 with
      | some value =>
          simp only [number, readInteger, whole]
          refine ⟨rfl, fun own member => ?_⟩
          cases member
          exact numeral.int64_fits whole
      | none =>
          cases float : numeral.float64 with
          | none => simp [number, readInteger, whole, float]
          | some value =>
              simp only [number, readInteger, whole, float, Option.filter_some]
              split
              · next bounds =>
                  rw [if_pos (by simpa using bounds)]
                  refine ⟨rfl, fun own member => ?_⟩
                  cases member
                  have low : ((-2 ^ 63 : Int) : ℚ) ≤ value := by
                    push_cast
                    exact bounds.2
                  have high : value < ((2 ^ 63 : Int) : ℚ) := by
                    push_cast
                    exact bounds.1
                  exact ⟨Python.le_trunc low (by decide), Python.trunc_lt high (by decide)⟩
              · next bounds =>
                  rw [if_neg (by simpa using bounds)]
                  exact ⟨rfl, by simp⟩
  | null => exact ⟨rfl, by simp [readInteger]⟩
  | list => exact ⟨rfl, by simp [readInteger]⟩
  | dict => exact ⟨rfl, by simp [readInteger]⟩

/-! ## Ages -/

section

variable {heartbeat staleSeconds now : Int}

theorem wrap_past (now : Int) (fits : InInt64 heartbeat) (clock : InInt64 now)
    (past : 2 ^ 63 ≤ now - heartbeat) : wrap (now - heartbeat) < 0 := by
  rcases fits with ⟨low, _⟩
  rcases clock with ⟨_, high⟩
  rw [wrap, Int.bmod_def]
  omega

theorem wrap_age (fits : InInt64 heartbeat) (positive : 0 < now)
    (short : now - heartbeat < 2 ^ 63) : wrap (now - heartbeat) = now - heartbeat :=
  wrap_of_inInt64 ⟨by have := fits.2; omega, short⟩

/-- A heartbeat is as stale as it should be, where its age is in the range. -/
theorem staleOf_iff (fits : InInt64 heartbeat) (some_ : heartbeat ≠ 0) (positive : 0 < now)
    (clock : InInt64 now) (threshold : 0 ≤ staleSeconds) (bound : InInt64 staleSeconds) :
    (staleOf heartbeat staleSeconds now = if staleSeconds < now - heartbeat then 1 else 0) ↔
      now - heartbeat < 2 ^ 63 := by
  rcases bound with ⟨_, bound⟩
  by_cases short : now - heartbeat < 2 ^ 63
  · refine iff_of_true ?_ short
    simp only [staleOf, some_, false_or, wrap_age fits positive short]
  · have negative := wrap_past now fits clock (by omega)
    refine iff_of_false ?_ short
    rw [staleOf, if_neg (by omega), if_pos (by omega)]
    decide

/-- What is read as the end of the range is never stale. -/
theorem staleOf_outside (ends : heartbeat = 2 ^ 63 - 1 ∨ heartbeat = -2 ^ 63)
    (positive : 0 < now) (clock : InInt64 now) (threshold : 0 ≤ staleSeconds) :
    staleOf heartbeat staleSeconds now = 0 := by
  have young : wrap (now - heartbeat) ≤ 0 := by
    rcases clock with ⟨_, high⟩
    rcases ends with rfl | rfl
    · rw [wrap_age (by decide) positive (by omega)]
      omega
    · exact Int.le_of_lt (wrap_past now (by decide) ⟨by omega, high⟩ (by omega))
  rw [staleOf, if_neg (by omega)]

end

/-! ## The rule, and the code -/

theorem nonzero_eq_some {heartbeat : Option Int} {value : Int} :
    nonzero heartbeat = some value ↔ heartbeat = some value ∧ value ≠ 0 := by
  simp [nonzero, Option.filter_eq_some_iff]

theorem getD_of_nonzero_none {heartbeat : Option Int} (none : nonzero heartbeat = none) :
    heartbeat.getD 0 = 0 := by
  cases heartbeat with
  | none => rfl
  | some value => simpa [nonzero] using none

section

variable {staleSeconds now : Int} (positive : 0 < now) (clock : InInt64 now)
  (threshold : 0 ≤ staleSeconds) (bound : InInt64 staleSeconds)
include positive clock threshold bound

theorem staleOf_read {read : Option Int} (fits : ∀ value ∈ read, InInt64 value) :
    staleOf (read.getD 0) staleSeconds now = judged staleSeconds now (nonzero read) ↔
      ∀ value ∈ nonzero read, now - value < 2 ^ 63 := by
  cases found : nonzero read with
  | none =>
      rw [getD_of_nonzero_none found, staleOf, if_pos (.inl rfl), judged]
      simp
  | some value =>
      rcases nonzero_eq_some.mp found with ⟨rfl, some_⟩
      have age := staleOf_iff (fits value rfl) some_ positive clock threshold bound
      simpa [judged] using age

/-- The code follows the rule exactly where ages are compared as they are. -/
theorem staleOf_heartbeatOf_iff (file : Option Line) (status : Object) :
    staleOf (heartbeatOf file status) staleSeconds now =
        staleness (readText (runes (file.getD [])))
          (readInteger (status.get "supervisor_heartbeat_ts".toList)) staleSeconds now ↔
      Compared (runes (file.getD [])) (status.get "supervisor_heartbeat_ts".toList) staleSeconds
        now := by
  rw [heartbeatOf]
  generalize runes (file.getD []) = text
  generalize status.get "supervisor_heartbeat_ts".toList = tree
  rcases number_text text with ⟨outside, unread, ends⟩ | ⟨inside, same, fits⟩
  · have some_ : number (some (.str text)) ≠ 0 := by omega
    have young := staleOf_outside ends positive clock threshold
    rw [if_neg some_, young, staleness, unread]
    constructor
    · intro same
      refine ⟨fun _ => ?_, fun value member => ?_, fun inside => absurd outside inside⟩
      · cases found : nonzero (readInteger tree) with
        | none =>
            rw [found] at same
            cases same
        | some value =>
            refine ⟨value, rfl, ?_⟩
            rw [found] at same
            simp only [nonzero, Option.filter_none, Option.none_or, judged] at same
            split at same
            · cases same
            · omega
      · rw [unread] at member
        cases member
    · intro compared
      rcases compared.outside outside with ⟨value, member, fresh⟩
      rw [Option.mem_def.mp member]
      simp only [nonzero, Option.filter_none, Option.none_or, judged]
      rw [if_neg (by omega)]
  · cases found : nonzero (readText text) with
    | some value =>
        rcases nonzero_eq_some.mp found with ⟨read, some_⟩
        have rule := staleOf_read positive clock threshold bound fits
        rw [found] at rule
        have counted : number (some (.str text)) ≠ 0 := by
          rwa [same, read]
        rw [if_neg counted, same, staleness, found, Option.some_or, rule]
        constructor
        · intro ages
          refine ⟨fun outside => absurd outside inside, by rwa [found], fun _ none => ?_⟩
          rw [found] at none
          cases none
        · intro compared
          rw [← found]
          exact compared.age
    | none =>
        rw [same, getD_of_nonzero_none found, if_pos rfl, staleness, found, Option.none_or]
        by_cases plain : ∀ text, tree = some (.str text) → ¬OutOfRange text
        · rcases number_readInteger tree plain with ⟨same, fits⟩
          rw [same, staleOf_read positive clock threshold bound fits]
          constructor
          · intro ages
            exact ⟨fun outside => absurd outside inside, by simp [found], fun _ _ => ⟨plain, ages⟩⟩
          · intro compared
            exact (compared.fallback inside found).2
        · simp only [not_forall, not_not] at plain
          rcases plain with ⟨own, rfl, outside⟩
          rcases number_text own with ⟨_, unread, ends⟩ | ⟨impossible, _⟩
          · have young := staleOf_outside ends positive clock threshold
            rw [young, readInteger, unread]
            refine iff_of_false (show ¬(0 : Int) = 1 by decide) fun compared => ?_
            exact (compared.fallback inside found).1 own rfl outside
          · exact absurd outside impossible

end

/-! ## What is shown -/

theorem shows_single {families : List Family} (names : (families.map Family.name).Nodup)
    (plain : ∀ family ∈ families, family.Plain) {name help : String} {kind : Kind} {value : Int}
    (member : single name help kind value ∈ families) (shown : Int) :
    Shows (print (families.flatMap Family.entries)) name shown ↔ value = shown := by
  have entry : ∀ own, .sample ⟨name.toList, [], own⟩ ∈ families.flatMap Family.entries ↔
      own = value := by
    intro own
    rw [mem_entries names member rfl]
    simp [single, Family.samples]
  constructor
  · rintro ⟨entries, parsed, each⟩
    rw [parse_families plain] at parsed
    cases parsed
    exact (each value).mp ((entry value).mpr rfl)
  · rintro rfl
    exact ⟨_, parse_families plain, entry⟩

theorem shows_stale (statusFile heartbeatFile rebuildFile : Option Line)
    (staleSeconds now shown : Int) :
    Shows (render statusFile heartbeatFile staleSeconds now rebuildFile)
        "gh_runner_heartbeat_stale" shown ↔
      staleOf (heartbeatOf heartbeatFile (object statusFile)) staleSeconds now = shown := by
  let heartbeat := heartbeatOf heartbeatFile (object statusFile)
  have member : single "gh_runner_heartbeat_stale"
      "1 when the supervisor heartbeat is missing or older than the threshold." .gauge
      (staleOf heartbeat staleSeconds now) ∈
        families (object statusFile) (object rebuildFile) heartbeat staleSeconds now := by
    simp [families, familiesBy]
  rw [render_eq]
  exact shows_single (familiesBy_nodup _ _ _ _ _ _ _) (familiesBy_plain _ _ _ _ _ _ _) member shown

/-- Where the rendered staleness is what the two heartbeats say. -/
theorem render_stale_iff (statusFile heartbeatFile rebuildFile : Option Line)
    {staleSeconds now : Int} (positive : 0 < now) (clock : InInt64 now)
    (threshold : 0 ≤ staleSeconds) (bound : InInt64 staleSeconds) :
    Shows (render statusFile heartbeatFile staleSeconds now rebuildFile)
        "gh_runner_heartbeat_stale"
        (staleness (readText (runes (heartbeatFile.getD [])))
          (readInteger ((object statusFile).get "supervisor_heartbeat_ts".toList)) staleSeconds
          now) ↔
      Compared (runes (heartbeatFile.getD []))
        ((object statusFile).get "supervisor_heartbeat_ts".toList) staleSeconds now := by
  rw [shows_stale]
  exact staleOf_heartbeatOf_iff positive clock threshold bound heartbeatFile (object statusFile)

/-- A heartbeat of a hundred seconds ago. -/
theorem render_stale_iff_recent :
    Shows (render none (some ['1', '0', '0', '\n']) 600 200 none) "gh_runner_heartbeat_stale"
        (staleness (readText (runes ['1', '0', '0', '\n']))
          (readInteger ((object none).get "supervisor_heartbeat_ts".toList)) 600 200) ↔
      Compared (runes ['1', '0', '0', '\n'])
        ((object none).get "supervisor_heartbeat_ts".toList) 600 200 :=
  render_stale_iff none (some ['1', '0', '0', '\n']) none (by decide) (by decide) (by decide)
    (by decide)

def pastText : Line := "9223372036854775808".toList

/-- It is no heartbeat, and is shown as a fresh one. -/
theorem render_past_fresh :
    ¬Shows (render none (some pastText) 600 1800000000 none) "gh_runner_heartbeat_stale"
      (staleness (readText (runes pastText))
        (readInteger ((object none).get "supervisor_heartbeat_ts".toList)) 600 1800000000) := by
  rw [shows_stale]
  decide +kernel

end Homelab.RunnerMetrics
