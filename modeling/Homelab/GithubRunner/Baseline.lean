import Homelab.GithubRunner.Rebuild

/-! # The baseline of the rebuilds

The last success that is recorded goes forward only, and only to the time of a success, as long
as no failed read is taken for a success that never was.
-/

namespace Homelab.GithubRunner.Rebuild

open Text Python

/-! ## The status is read back -/

theorem decimal_short {number : Nat} (fits : number < 2 ^ 63) : (decimal number).length ≤ 4300 := by
  have short : (decimal number).length ≤ 20 :=
    (Nat.length_toDigits_le_iff (by decide) (by decide)).mpr (by omega)
  omega

theorem loads_report (room : Nat) {now exit success : Nat} (started : now < 2 ^ 63)
    (ended : exit < 2 ^ 63) (succeeded : success < 2 ^ 63) {version tag ownVersion ownTag : Line}
    (legible : Json.Quotes version ownVersion) (dated : Json.Quotes tag ownTag) :
    Json.loads (room + 1) (.ofList (report now exit (decimal success) version tag)) =
      .ok (.dict [("last_attempt_ts", .int now), ("last_success_ts", .int success),
        ("last_exit_code", .int exit), ("runner_version", .str (.ofList ownVersion)),
        ("image_tag", .str (.ofList ownTag))]) := by
  have space : ∀ char ∈ [' '], Json.isSpace char = true := by decide
  have newline : ∀ char ∈ ['\n'], Json.isSpace char = true := by decide
  have named : ∀ name : String, (∀ char ∈ name.toList, Json.Plain char) →
      Json.Quotes name.toList name.toList := fun name plain => Json.quotes_plain plain
  -- the members from the last one on
  have image := Json.Members.last (named "image_tag" (by decide)) space (dated.reads room)
    Json.no_spaces
  have runner := Json.Members.more (named "runner_version" (by decide)) space
    (legible.reads room) space image
  have code := Json.Members.more (named "last_exit_code" (by decide)) space
    (Json.reads_nat room (decimal_short ended)) space runner
  have baseline := Json.Members.more (named "last_success_ts" (by decide)) space
    (Json.reads_nat room (decimal_short succeeded)) space code
  have attempt := Json.Members.more (named "last_attempt_ts" (by decide)) space
    (Json.reads_nat room (decimal_short started)) space baseline
  have read := Json.loads_of_reads (attempt.reads Json.no_spaces) newline
  simp only [String.ofList_toList] at read
  rw [Json.putAll_nil (by simp)] at read
  simp only [report, entry, List.append_assoc, List.cons_append, List.nil_append] at read ⊢
  exact read

theorem recorded_report (room : Nat) {now exit success : Nat} (started : now < 2 ^ 63)
    (ended : exit < 2 ^ 63) (succeeded : success < 2 ^ 63) {version tag : Line}
    (legible : Legible version) (dated : Legible tag) :
    recorded room (some (report now exit (decimal success) version tag)) =
      some (success : Int) := by
  rcases legible with ⟨ownVersion, legible⟩
  rcases dated with ⟨ownTag, dated⟩
  rw [recorded, lastSuccess, loads_report room started ended succeeded legible dated]
  simp [Value.get, List.lookup_cons]

/-! ## The previous success -/

theorem substitute_line {text : Line} (last : text.getLast? ≠ some '\n') :
    (substitute (.ofList (text ++ ['\n']))).toList = text := by
  rw [substitute, String.toList_ofList, String.toList_ofList,
    List.rdropWhile_concat_pos _ _ _ (by decide)]
  refine List.rdropWhile_eq_self_iff.mpr fun some_ => ?_
  simp only [decide_eq_true_eq]
  intro newline
  exact last (by rw [List.getLast?_eq_some_getLast some_, newline])

theorem decimal_digits (number : Nat) :
    decimal number ≠ [] ∧ (decimal number).all Char.isDigit = true ∧ '\n' ∉ decimal number := by
  have digits : ∀ char ∈ decimal number, char.isDigit = true :=
    fun char member => Json.toDigits_isDigit number member
  refine ⟨Nat.toDigits_ne_nil, List.all_eq_true.mpr digits, fun member => ?_⟩
  exact absurd (digits _ member) (by decide)

/-- A read that fails is a success that never was, whatever it has printed. -/
theorem prevSuccess_unread {room : Nat} {run : Run} {file : Option Line} {output : Line}
    (unread : statusRead run file = (output, false)) : prevSuccess room run file = decimal 0 := by
  rw [prevSuccess, unread]
  simp only
  cases lastSuccess room output with
  | error raised =>
      have zero := @substitute_line ['0'] (by decide)
      simp only [List.cons_append, List.nil_append] at zero
      simp only [zero]
      decide
  | ok value =>
      have lines := @substitute_line (printed value ++ ['\n', '0']) (by simp)
      simp only [List.append_assoc, List.cons_append, List.nil_append] at lines
      simp only [Bool.false_eq_true, if_false, lines]
      rw [if_neg (by simp)]
      decide

theorem prevSuccess_failed {room : Nat} {run : Run} {file : Option Line} {output : Line}
    (failed : run.readFailure = some output) : prevSuccess room run file = decimal 0 := by
  have unread : statusRead run file = (output, false) := by simp only [statusRead, failed]
  exact prevSuccess_unread unread

/-- Where the status is read, what it records is taken over. -/
theorem prevSuccess_read {room : Nat} {run : Run} {file : Option Line} {success : Nat}
    (read : run.readFailure = none) (known : recorded room file = some (success : Int)) :
    prevSuccess room run file = decimal success := by
  rcases decimal_digits success with ⟨some_, digits, single⟩
  cases file with
  | none =>
      have zero : success = 0 := by simpa [recorded] using known.symm
      have unread : statusRead run none = ([], false) := by simp only [statusRead, read]
      rw [zero]
      exact prevSuccess_unread unread
  | some text =>
      have parsed : lastSuccess room text = .ok (.int success) := by
        rw [recorded] at known
        split at known
        · next value parsed =>
            rw [parsed, Option.some.inj known]
        · cases known
      have shown : printed (.int success) = decimal success := by
        rw [printed]
        exact Json.toList_toString success
      have last : (decimal success).getLast? ≠ some '\n' := by
        intro newline
        exact single (List.mem_of_getLast? newline)
      have line := substitute_line last
      have whole : statusRead run (some text) = (text, true) := by simp only [statusRead, read]
      rw [prevSuccess, whole]
      simp only [parsed, if_true, shown, line]
      rw [if_pos ⟨some_, digits⟩]

/-! ## One run -/

theorem recent_zero (run : Run) : run.recent (decimal 0) = false := by
  rw [Run.recent]
  split
  · simp [decimal, Json.natOf]
  · rfl

/-- A run is a success of its own, or it ends short of that with the success of before. -/
theorem rebuild_cases (room : Nat) (run : Run) (file : Option Line) :
    (run.Succeeds ∧ rebuild room run file =
      ⟨writeStatus run file 0 (decimal run.now) (run.reported (prevSuccess room run file)) run.tag,
        true, true⟩) ∨
    ¬(run.Succeeds ∧ run.recent (prevSuccess room run file) = false) ∧
      ∃ exit pushed, exit < 2 ^ 63 ∧ rebuild room run file =
        ⟨writeStatus run file exit (prevSuccess room run file)
          (run.reported (prevSuccess room run file)) [], pushed, false⟩ := by
  rw [rebuild]
  generalize prevSuccess room run file = prev
  simp only [Bool.not_eq_eq_eq_not, Bool.not_true]
  have early : ∀ {version : Line}, run.early prev = true → version = run.inherited →
      orUnknown version = run.reported prev := by
    intro version early same
    rw [same, Run.reported, if_pos early]
  have late : run.early prev = false → orUnknown run.version = run.reported prev := by
    intro late
    rw [Run.reported, late]
    rfl
  by_cases docker : run.dockerRuns = false
  · refine .inr ⟨fun own => ?_, 1, false, by decide, ?_⟩
    · rw [own.1.1] at docker
      cases docker
    · rw [if_pos docker, early (by simp [Run.early, docker]) rfl]
  · rw [if_neg docker]
    by_cases environment : run.envFile = false
    · refine .inr ⟨fun own => ?_, 1, false, by decide, ?_⟩
      · rw [own.1.2.1] at environment
        cases environment
      · rw [if_pos environment, early (by simp [Run.early, environment]) rfl]
    · rw [if_neg environment]
      by_cases recent : run.recent prev = true
      · refine .inr ⟨fun own => ?_, 0, false, by decide, ?_⟩
        · rw [own.2] at recent
          cases recent
        · rw [if_pos recent, early (by simp [Run.early, recent]) rfl]
      · rw [if_neg recent]
        have late := late (by simp [Run.early, docker, environment, recent])
        by_cases unknown : run.version = []
        · refine .inr ⟨fun own => own.1.2.2.1 unknown, 1, false, by decide, ?_⟩
          rw [if_pos unknown, late]
        · rw [if_neg unknown]
          by_cases built : run.builds = false
          · refine .inr ⟨fun own => ?_, 1, false, by decide, ?_⟩
            · rw [own.1.2.2.2.1] at built
              cases built
            · rw [if_pos built, late]
          · rw [if_neg built]
            by_cases composed : run.composes = false
            · refine .inr ⟨fun own => ?_, 1, true, by decide, ?_⟩
              · rw [own.1.2.2.2.2] at composed
                cases composed
              · rw [if_pos composed, late]
            · rw [if_neg composed]
              refine .inl ⟨⟨by simpa using docker, by simpa using environment, unknown,
                by simpa using built, by simpa using composed⟩, ?_⟩
              rw [← late, orUnknown, if_neg unknown]

theorem legible_plain {text : Line} (plain : ∀ char ∈ text, Json.Plain char) : Legible text :=
  ⟨text, Json.quotes_plain plain⟩

theorem legible_reported {run : Run} (inherited : Legible run.inherited)
    (version : Legible run.version) (prev : Line) : Legible (run.reported prev) := by
  have known : ∀ {text : Line}, Legible text → Legible (orUnknown text) := by
    intro text legible
    rw [orUnknown]
    split
    · exact legible_plain (by decide)
    · exact legible
  rw [Run.reported]
  split
  · exact known inherited
  · exact known version

theorem Run.dated_legible (run : Run) : Legible run.tag := by
  refine legible_plain fun char member => ?_
  rcases run.dated char member with digit | rfl
  · exact ⟨Json.ne_of_isDigit digit (by decide), Json.ne_of_isDigit digit (by decide), by
      simp only [Char.isDigit, Bool.and_eq_true, decide_eq_true_eq] at digit
      exact le_trans (by decide) digit.1⟩
  · decide

/-- A run that ends short of a success has the baseline of before. -/
theorem prevSuccess_short {room : Nat} {run : Run} {file : Option Line} {success : Nat}
    (known : recorded room file = some (success : Int))
    (baseline : run.readFailure = none ∨ recorded room file = some 0 ∨ run.Succeeds)
    (short : ¬(run.Succeeds ∧ run.recent (prevSuccess room run file) = false)) :
    prevSuccess room run file = decimal success := by
  cases failure : run.readFailure with
  | none => exact prevSuccess_read failure known
  | some output =>
      have unread : prevSuccess room run file = decimal 0 := prevSuccess_failed failure
      rcases baseline with read | zero | own
      · rw [read] at failure
        cases failure
      · have same : success = 0 := by simpa [known] using zero
        rw [unread, same]
      · rw [unread] at short
        exact absurd ⟨own, recent_zero run⟩ short

/-- What one run does to the recorded success. -/
theorem rebuild_step {room : Nat} {run : Run} {file : Option Line} {success : Nat}
    (known : recorded room file = some (success : Int)) (past : success ≤ run.now)
    (keeps : run.Keeps room file) :
    ∃ after : Nat, recorded room (rebuild room run file).file = some (after : Int) ∧
      success ≤ after ∧ after ≤ run.now ∧
      (after ≠ success → after = run.now ∧ (rebuild room run file).pushed = true ∧
        (rebuild room run file).recreated = true) := by
  have fits := run.fits
  by_cases kept : run.write = .kept
  · have same : (rebuild room run file).file = file := by
      rcases rebuild_cases room run file with ⟨_, ended⟩ | ⟨_, exit, pushed, _, ended⟩
      · simp only [ended, writeStatus, kept]
      · simp only [ended, writeStatus, kept]
    rw [same]
    exact ⟨success, known, le_refl _, past, fun changed => absurd rfl changed⟩
  · rcases keeps.resolve_left kept with ⟨whole, legible, baseline⟩
    have replaced : run.write = .replaced := by
      cases written : run.write with
      | kept => exact absurd written kept
      | replaced => rfl
      | cut count => exact absurd written (whole count)
    rcases rebuild_cases room run file with ⟨_, ended⟩ | ⟨short, exit, pushed, small, ended⟩
    · have zero : 0 < 2 ^ 63 := by decide
      have after := recorded_report room fits zero fits legible run.dated_legible
      rw [ended]
      simp only [writeStatus, replaced]
      exact ⟨run.now, after, past, le_refl _, fun _ => ⟨rfl, trivial, trivial⟩⟩
    · have untagged : Legible [] := legible_plain (by simp)
      have same := prevSuccess_short known baseline short
      rw [same] at ended legible
      have after := recorded_report room fits small (lt_of_le_of_lt past fits) legible untagged
      rw [ended]
      simp only [writeStatus, replaced]
      exact ⟨success, after, le_refl _, past, fun changed => absurd rfl changed⟩

theorem Advances.of_step {room : Nat} {run : Run} {file : Option Line} {success : Nat}
    (known : recorded room file = some (success : Int)) (past : success ≤ run.now)
    (keeps : run.Keeps room file) : Advances room run file := by
  rcases rebuild_step known past keeps with ⟨after, known', forward, _, own⟩
  refine ⟨success, after, known, known', by omega, fun changed => ?_⟩
  rcases own (by omega) with ⟨rfl, did⟩
  exact ⟨rfl, did⟩

/-- A whole status that can be read keeps the baseline only where the last one has been read,
or there was none, or the run is a success of its own. -/
theorem advances_iff {room : Nat} {run : Run} {file : Option Line} {success : Nat}
    (known : recorded room file = some (success : Int)) (past : success ≤ run.now)
    (replaced : run.write = .replaced)
    (legible : Legible (run.reported (prevSuccess room run file))) :
    Advances room run file ↔
      (run.readFailure = none ∨ recorded room file = some 0 ∨ run.Succeeds) := by
  constructor
  · intro advances
    cases failure : run.readFailure with
    | none => exact .inl rfl
    | some output =>
        rcases rebuild_cases room run file with ⟨own, _⟩ | ⟨_, exit, pushed, small, ended⟩
        · exact .inr (.inr own)
        · have untagged : Legible [] := legible_plain (by simp)
          have unread : prevSuccess room run file = decimal 0 := prevSuccess_failed failure
          have zero : 0 < 2 ^ 63 := by decide
          rw [unread] at ended legible
          have after := recorded_report room run.fits small zero legible untagged
          rcases advances with ⟨before, later, known', known'', forward, _⟩
          rw [ended] at known''
          simp only [writeStatus, replaced] at known''
          rw [after] at known''
          rw [known] at known'
          cases known'
          cases known''
          have gone : success = 0 := by omega
          rw [known, gone]
          exact .inr (.inl rfl)
  · intro baseline
    have whole : ∀ count, run.write ≠ .cut count := by
      intro count written
      rw [replaced] at written
      cases written
    exact .of_step known past (.inr ⟨whole, legible, baseline⟩)

/-! ## All runs -/

theorem along_of_recorded {room : Nat} {runs : List Run}
    (ordered : runs.Pairwise fun first later => first.now ≤ later.now) {file : Option Line}
    {success : Nat} (known : recorded room file = some (success : Int))
    (past : ∀ run ∈ runs, success ≤ run.now)
    (keeps : Along room (fun run file => run.Keeps room file) file runs) :
    Along room (Advances room) file runs := by
  induction runs generalizing file success with
  | nil => trivial
  | cons run rest induction =>
      rcases List.pairwise_cons.mp ordered with ⟨first, ordered⟩
      have own := past run List.mem_cons_self
      rcases rebuild_step known own keeps.1 with ⟨after, known', _, small, _⟩
      refine ⟨.of_step known own keeps.1, induction ordered known' (fun later member => ?_) keeps.2⟩
      exact le_trans small (first later member)

/-- In every sequence of runs with a clock that does not go back, as long as each of them keeps
the baseline, the recorded success goes forward only, and only to the time of a run that has
pushed the image and recreated the supervisor. -/
theorem success_monotone (room : Nat) {runs : List Run}
    (ordered : runs.Pairwise fun first later => first.now ≤ later.now)
    (keeps : Along room (fun run file => run.Keeps room file) none runs) :
    Along room (Advances room) none runs := by
  have start : recorded room none = some ((0 : Nat) : Int) := rfl
  exact along_of_recorded ordered start (fun run _ => Nat.zero_le run.now) keeps

/-- A run with the status whole, where everything else succeeds unless it is said here. -/
def plainRun (now : Nat) (fits : now < 2 ^ 63) (readFailure : Option Line) (builds : Bool) :
    Run where
  now := now
  fits := fits
  tag := "2026-09-01".toList
  dated := by decide
  readFailure := readFailure
  write := .replaced
  dockerRuns := true
  envFile := true
  force := false
  minAgeDays := some 14
  inherited := []
  ghVersion := "2.328.0".toList
  curlVersion := []
  builds := builds
  composes := true

theorem plainRun_keeps (room : Nat) {now : Nat} (fits : now < 2 ^ 63) (builds : Bool)
    (file : Option Line) : (plainRun now fits none builds).Keeps room file := by
  have whole : ∀ count, (plainRun now fits none builds).write ≠ .cut count := by
    intro count written
    cases written
  refine .inr ⟨whole, ?_, .inl rfl⟩
  have unset : Legible (plainRun now fits none builds).inherited :=
    legible_plain (by simp [plainRun])
  have found : Legible "2.328.0".toList := legible_plain (by decide)
  have resolved : Legible (plainRun now fits none builds).version := by
    rw [Run.version, if_neg (by simp [plainRun])]
    exact found
  exact legible_reported unset resolved _

/-- A success, a rebuild that is not due, one that fails, and the next success. -/
theorem success_monotone_months :
    Along 0 (Advances 0) none [plainRun 1000 (by decide) none true,
      plainRun 2000 (by decide) none true, plainRun 2000000 (by decide) none false,
      plainRun 2100000 (by decide) none true] := by
  refine success_monotone 0 (by decide) ⟨plainRun_keeps 0 _ _ _, plainRun_keeps 0 _ _ _,
    plainRun_keeps 0 _ _ _, plainRun_keeps 0 _ _ _, trivial⟩

/-- The status cannot be read, and the rebuild fails: the success of the run before is gone. -/
theorem success_forgotten :
    ¬∀ (room : Nat) (runs : List Run),
      (runs.Pairwise fun first later => first.now ≤ later.now) →
        Along room (Advances room) none runs := by
  intro monotone
  have along := monotone 0 [plainRun 1000 (by decide) none true,
    plainRun 2000 (by decide) (some []) false] (by decide)
  rcases along.2.1 with ⟨before, after, known, known', forward, _⟩
  have first : recorded 0 (rebuild 0 (plainRun 1000 (by decide) none true) none).file =
      some 1000 := by decide +kernel
  have second : recorded 0 (rebuild 0 (plainRun 2000 (by decide) (some []) false)
      (rebuild 0 (plainRun 1000 (by decide) none true) none).file).file = some 0 := by
    decide +kernel
  rw [first] at known
  rw [second] at known'
  cases known
  cases known'
  omega

end Homelab.GithubRunner.Rebuild
