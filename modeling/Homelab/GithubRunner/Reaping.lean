import Homelab.GithubRunner.Host
import Mathlib.Data.List.Infix

/-! # The evidence for reaping a runner

A runner is deleted when it has been offline for long enough. Since when it is offline
is kept by its id alone, so that it matters whether another repository has the same id.
-/

namespace Homelab.GithubRunner

open Effects Python

/-! ## What the listings say -/

def IsListing (moment : Moment interface World) : Prop :=
  ∃ owner repo, moment.operation = .github (.listRunners owner repo)

def Lists (repo : String) (items : List Value) (moment : Moment interface World) : Prop :=
  ∃ before owner response after,
    moment = ⟨before, .github (.listRunners owner repo), .ok response, after⟩ ∧
    response.statusCode = 200 ∧ response.runners = .ok items

def HasKey (key : Key) (runner : Value) : Prop := keyOf runner = .ok (some key)

def Contains (items : List Value) (key : Key) : Prop := ∃ runner ∈ items, HasKey key runner

/-- Wherever the runner is in the listing, it is offline. -/
def AllOffline (items : List Value) (key : Key) : Prop :=
  ∀ runner ∈ items, HasKey key runner → hasStatus "offline" runner = true

def Silent (moment : Moment interface World) : Prop :=
  moment.operation ≠ .time ∧ ¬IsListing moment

/-- After `older`, these runners were listed, then the clock read `now`, and then `newer`
happened. -/
def Observed (repo : String) (items : List Value) (now : ℚ)
    (older newer past : Past interface World) : Prop :=
  ∃ before after middle listing,
    past = newer ++ ⟨before, .time, now, after⟩ :: (middle ++ listing :: older) ∧
    Lists repo items listing ∧ ∀ moment ∈ middle, Silent moment

/-- A listing of the repository showed the runner offline, the clock was `first` then, and
every later listing of the repository that has the runner shows it offline. -/
def OfflineSince (repo : String) (key : Key) (first : ℚ)
    (past : Past interface World) : Prop :=
  ∃ items older newer, Observed repo items first older newer past ∧ Contains items key ∧
    AllOffline items key ∧
    ∀ moment ∈ newer, ∀ others, Lists repo others moment → AllOffline others key

def LatestTime (now : ℚ) (past : Past interface World) : Prop :=
  ∃ newer before after older, past = newer ++ ⟨before, .time, now, after⟩ :: older ∧
    ∀ moment ∈ newer, moment.operation ≠ .time

/-- These runners were listed when a listing was last asked for. -/
def LatestListing (repo : String) (items : List Value) (past : Past interface World) :
    Prop :=
  ∃ newer listing older, past = newer ++ listing :: older ∧ Lists repo items listing ∧
    ∀ moment ∈ newer, ¬IsListing moment

/-- The runner has been offline for long enough, as far as its repository is asked. -/
def Due (cfg : Config) (repo : String) (key : Key) (past : Past interface World) : Prop :=
  ∃ now first, LatestTime now past ∧ OfflineSince repo key first past ∧
    cfg.orphanReapSeconds ≤ now - first

def graceOf (key : Key) (world : World) : Option ℚ := world.memory.offlineSince.lookup key

/-- Only runners that are due are deleted, and since when a runner is offline changes
only with a listing that has it. -/
structure Proper (cfg : Config) (past : Past interface World)
    (moment : Moment interface World) : Prop where
  due : ∀ owner repo id key, moment.operation = .github (.deleteRunner owner repo id) →
    id.key = .ok (some key) → Due cfg repo key past
  apart : ∀ key, graceOf key moment.after ≠ graceOf key moment.before →
    ∃ repo items, LatestListing repo items past ∧ Contains items key

/-! ## What has to hold of the answers -/

/-- A runner is listed for its home only. -/
def AtHome (home : Key → String) (moment : Moment interface World) : Prop :=
  ∀ repo items key, Lists repo items moment → Contains items key → home key = repo

def UniqueIds (moment : Moment interface World) : Prop :=
  ∀ repo items, Lists repo items moment → ∀ one ∈ items, ∀ other ∈ items, ∀ key,
    HasKey key one → HasKey key other → one = other

/-- If a deletion ends the tick, no runner of the listing that is not offline is still
taken for one that is. -/
def Spares (past : Past interface World) (moment : Moment interface World) : Prop :=
  ∀ before owner repo id raised after,
    moment = ⟨before, .github (.deleteRunner owner repo id), .error raised, after⟩ →
    raised.caughtByTick = true →
    ∀ listed items, LatestListing listed items past → ∀ key, Contains items key →
      AllOffline items key ∨ graceOf key before = none

def Spared (past : Past interface World) : Prop :=
  ∀ newer moment older, past = newer ++ moment :: older → Spares older moment

section

variable {cfg : Config} {home : Key → String} {repo : String} {items rest : List Value}
  {key : Key} {first now : ℚ} {past older newer : Past interface World}
  {world after : World} {moment : Moment interface World}

theorem Spared.of_cons (spared : Spared (moment :: past)) : Spared past := by
  intro newer other older split
  exact spared (moment :: newer) other older (by rw [split]; rfl)

theorem Spared.of_suffix (spared : Spared past) (suffix : older <:+ past) :
    Spared older := by
  rcases suffix with ⟨newer, rfl⟩
  intro front other back split
  exact spared (newer ++ front) other back (by rw [split, List.append_assoc])

theorem Lists.isListing (lists : Lists repo items moment) : IsListing moment := by
  rcases lists with ⟨before, owner, response, after, rfl, _⟩
  exact ⟨owner, repo, rfl⟩

theorem Lists.same {other : String} {others : List Value}
    (lists : Lists repo items moment) (also : Lists other others moment) :
    other = repo ∧ others = items := by
  rcases lists with ⟨before, owner, response, after, rfl, _, listed⟩
  rcases also with ⟨before', owner', response', after', same, _, listed'⟩
  cases same
  rw [listed] at listed'
  cases listed'
  exact ⟨rfl, rfl⟩

/-- What comes after is no evidence against the runner being offline. -/
theorem OfflineSince.extend (offline : OfflineSince repo key first past)
    {more : Past interface World}
    (still : ∀ moment ∈ more, ∀ others, Lists repo others moment →
      AllOffline others key) : OfflineSince repo key first (more ++ past) := by
  rcases offline with
    ⟨items, older, newer, ⟨before, after, middle, listing, rfl, lists, silent⟩, listed,
      offline, later⟩
  refine ⟨items, older, more ++ newer,
    ⟨before, after, middle, listing, by rw [List.append_assoc], lists, silent⟩, listed,
    offline, ?_⟩
  exact List.forall_mem_append.mpr ⟨still, later⟩

theorem OfflineSince.cons_of_not_lists (offline : OfflineSince repo key first past)
    (other : ∀ others, ¬Lists repo others moment) :
    OfflineSince repo key first (moment :: past) := by
  change OfflineSince repo key first ([moment] ++ past)
  apply offline.extend
  intro same member others lists
  rw [List.mem_singleton.mp member] at lists
  exact absurd lists (other others)

theorem OfflineSince.cons (offline : OfflineSince repo key first past)
    (other : ¬IsListing moment) : OfflineSince repo key first (moment :: past) :=
  offline.cons_of_not_lists fun _ lists => other lists.isListing

/-- The listing that is gone through, and the time that was read for it. -/
def Sweeping (repo : String) (items : List Value) (now : ℚ)
    (older past : Past interface World) : Prop :=
  ∃ newer, Observed repo items now older newer past ∧ ∀ moment ∈ newer, Silent moment

theorem Sweeping.cons (sweeping : Sweeping repo items now older past)
    (silent : Silent moment) : Sweeping repo items now older (moment :: past) := by
  rcases sweeping with
    ⟨newer, ⟨before, after, middle, listing, rfl, lists, quiet⟩, still⟩
  exact ⟨moment :: newer, ⟨before, after, middle, listing, rfl, lists, quiet⟩,
    List.forall_mem_cons.mpr ⟨silent, still⟩⟩

theorem Sweeping.latestTime (sweeping : Sweeping repo items now older past) :
    LatestTime now past := by
  rcases sweeping with ⟨newer, ⟨before, after, middle, listing, rfl, _, _⟩, still⟩
  exact ⟨newer, before, after, _, rfl, fun moment member => (still moment member).1⟩

theorem Sweeping.latestListing (sweeping : Sweeping repo items now older past) :
    LatestListing repo items past := by
  rcases sweeping with ⟨newer, ⟨before, after, middle, listing, rfl, lists, quiet⟩, still⟩
  refine ⟨newer ++ ⟨before, .time, now, after⟩ :: middle, listing, older, by simp, lists, ?_⟩
  intro moment member
  rcases List.mem_append.mp member with member | member
  · exact (still moment member).2
  · rcases List.mem_cons.mp member with rfl | member
    · rintro ⟨owner, repo, impossible⟩
      cases impossible
    · exact (quiet moment member).2

/-- A runner that the listing shows offline is offline since the clock was read. -/
theorem Sweeping.offlineSince (sweeping : Sweeping repo items now older past)
    (listed : Contains items key) (offline : AllOffline items key) :
    OfflineSince repo key now past := by
  rcases sweeping with ⟨newer, observed, still⟩
  refine ⟨items, older, newer, observed, listed, offline, ?_⟩
  exact fun moment member others lists => absurd lists.isListing (still moment member).2

/-- A runner that was offline before is still so, as far as the listing goes. -/
theorem Sweeping.revive (sweeping : Sweeping repo items now older past) {other : String}
    (offline : OfflineSince other key first older)
    (still : other = repo → AllOffline items key) : OfflineSince other key first past := by
  rcases sweeping with ⟨newer, ⟨before, after, middle, listing, split, lists, quiet⟩, silent⟩
  have whole : past = (newer ++ ⟨before, .time, now, after⟩ :: (middle ++ [listing])) ++
      older := by simp [split]
  rw [whole]
  apply offline.extend
  intro moment member others also
  have candidates : moment ∈ newer ∨ moment.operation = .time ∨ moment ∈ middle ∨
      moment = listing := by
    simp only [List.mem_append, List.mem_cons, List.not_mem_nil, or_false] at member
    rcases member with member | rfl | member | member
    · exact .inl member
    · exact .inr (.inl rfl)
    · exact .inr (.inr (.inl member))
    · exact .inr (.inr (.inr member))
  rcases candidates with member | reading | member | rfl
  · exact absurd also.isListing (silent moment member).2
  · rcases also.isListing with ⟨owner, repo, asked⟩
    cases reading.symm.trans asked
  · exact absurd also.isListing (quiet moment member).2
  · rcases lists.same also with ⟨sameRepo, sameItems⟩
    exact sameItems ▸ still sameRepo

/-! ## The table -/

/-- Each entry is backed by the listings of the runner's home. -/
def Timed (home : Key → String) (past : Past interface World) (world : World) : Prop :=
  ∀ key first, graceOf key world = some first → OfflineSince (home key) key first past

/-- The same in the middle of a listing, of which `rest` was not gone through yet: its
runners are backed as far as that listing is not concerned. -/
def Timing (home : Key → String) (older : Past interface World) (rest : List Value)
    (past : Past interface World) (world : World) : Prop :=
  ∀ key first, graceOf key world = some first → OfflineSince (home key) key first past ∨
    Contains rest key ∧ OfflineSince (home key) key first older

theorem Timing.timed (timing : Timing home older [] past world) :
    Timed home past world := by
  intro key first entry
  rcases timing key first entry with backed | ⟨⟨runner, impossible, _⟩, _⟩
  · exact backed
  · cases impossible

theorem Timed.move (timed : Timed home past world)
    (same : after.memory.offlineSince = world.memory.offlineSince) :
    Timed home past after := by
  intro key first entry
  rw [graceOf, same] at entry
  exact timed key first entry

theorem Timed.next (timed : Timed home past world) (other : ¬IsListing moment)
    (same : after.memory.offlineSince = world.memory.offlineSince) :
    Timed home (moment :: past) after := by
  exact fun key first entry => (timed.move same key first entry).cons other

theorem Timing.next (timing : Timing home older rest past world)
    (other : ¬IsListing moment)
    (same : after.memory.offlineSince = world.memory.offlineSince) :
    Timing home older rest (moment :: past) after := by
  intro key first entry
  rw [graceOf, same] at entry
  rcases timing key first entry with backed | waiting
  · exact .inl (backed.cons other)
  · exact .inr waiting

theorem Timing.weaken (timing : Timing home older rest past world) (runner : Value) :
    Timing home older (runner :: rest) past world := by
  intro key first entry
  rcases timing key first entry with backed | ⟨⟨other, member, keyed⟩, backed⟩
  · exact .inl backed
  · exact .inr ⟨⟨other, List.mem_cons_of_mem _ member, keyed⟩, backed⟩

/-- A runner was gone through if its entry, should it have one, is backed. -/
theorem Timing.tail {runner : Value}
    (timing : Timing home older (runner :: rest) past world)
    (done : ∀ key first, HasKey key runner → graceOf key world = some first →
      OfflineSince (home key) key first past) :
    Timing home older rest past world := by
  intro key first entry
  rcases timing key first entry with backed | ⟨⟨other, member, keyed⟩, backed⟩
  · exact .inl backed
  · rcases List.mem_cons.mp member with rfl | member
    · exact .inl (done key first keyed entry)
    · exact .inr ⟨⟨other, member, keyed⟩, backed⟩

/-- A listing is about to be gone through. -/
theorem Sweeping.timing (sweeping : Sweeping repo items now older past)
    (timed : Timed home older world) : Timing home older items past world := by
  intro key first entry
  by_cases listed : Contains items key
  · exact .inr ⟨listed, timed key first entry⟩
  · refine .inl (sweeping.revive (timed key first entry) fun _ => ?_)
    exact fun runner member keyed => absurd ⟨runner, member, keyed⟩ listed

/-! ## The parts of a tick -/

/-- The rules of the host, if ids are unique and listed for one repository each. -/
abbrev separate (home : Key → String) : System interface World :=
  system.restrict fun moment => AtHome home moment ∧ UniqueIds moment

/-- As long as deletions are spared, each moment is proper, and an exception that the
tick catches leaves only entries that are backed. -/
abbrev Guards (cfg : Config) (home : Key → String) {α : Type}
    (post : Past interface World → World → α → Prop) (program : Py α)
    (past : Past interface World) (world : World) : Prop :=
  Attempt.Guarded (separate home) (fun past moment => Spared past → Proper cfg past moment)
    (fun past world result => Spared past → post past world result)
    (fun past world raised => raised.caughtByTick = true → Spared past →
      Timed home past world) program past world

variable {α β : Type}

/-- Once a deletion is not spared, nothing more has to hold. -/
theorem Guards.assume {post : Past interface World → World → α → Prop} {program : Py α}
    (guards : Spared past → Guards cfg home post program past world) :
    Guards cfg home post program past world := by
  by_cases spared : Spared past
  · exact guards spared
  · have idle : Effects.Guarded (separate home) (fun _ _ => True) (fun _ _ _ => True)
        program.run past world :=
      Effects.Guarded.of_executes (fun _ _ _ _ _ _ => trivial) fun _ _ _ _ => trivial
    apply Effects.Guarded.mono (idle.grows List.suffix_rfl)
    · exact fun later moment ⟨suffix, _⟩ still => absurd (still.of_suffix suffix) spared
    · intro later world outcome ⟨suffix, _⟩
      cases outcome with
      | ok result => exact fun still => absurd (still.of_suffix suffix) spared
      | error raised => exact fun _ still => absurd (still.of_suffix suffix) spared

theorem Guards.bind {middle : Past interface World → World → α → Prop}
    {post : Past interface World → World → β → Prop} {program : Py α} {rest : α → Py β}
    (first : Guards cfg home middle program past world)
    (second : ∀ past world result, Spared past → middle past world result →
      Guards cfg home post (rest result) past world) :
    Guards cfg home post (program >>= rest) past world :=
  Attempt.bind first fun past world result holds =>
    Guards.assume fun spared => second past world result spared (holds spared)

/-- A value that can be read is used, and one that cannot ends the supervisor. -/
theorem Guards.builtin {value : Except Raised α} {rest : α → Py β}
    {post : Past interface World → World → β → Prop}
    (read : ∀ result, value = .ok result →
      Guards cfg home post (rest result) past world) :
    Guards cfg home post (GithubRunner.builtin value >>= rest) past world := by
  apply Attempt.bind_iff.mpr
  apply builtin_iff.mpr
  cases value with
  | ok result => exact read result rfl
  | error raised => exact fun impossible => by cases impossible

def Operation.keepsTable : Operation → Bool
  | .setGrace _ _ => false
  | .popGrace _ => false
  | _ => true

theorem offlineSince_same {operation : Operation} {answer : Answer operation}
    (keeps : operation.keepsTable = true)
    (step : system.Step world operation answer after) :
    after.memory.offlineSince = world.memory.offlineSince := by
  rw [HostStep.remembering step]
  cases operation with
  | setGrace key now => cases keeps
  | popGrace key => cases keeps
  | _ => rfl

theorem proper_of_keeps {operation : Operation} {answer : Answer operation}
    (keeps : operation.keepsTable = true)
    (other : ∀ owner repo id, operation ≠ .github (.deleteRunner owner repo id))
    (step : system.Step world operation answer after) :
    Proper cfg past ⟨world, operation, answer, after⟩ where
  due owner repo id _ asked := absurd asked (other owner repo id)
  apart key changed := by
    refine absurd ?_ changed
    rw [graceOf, offlineSince_same keeps step]
    rfl

theorem others_keep : Keeps (separate home) (Of [.plain, .starts, .accounts])
    (fun past moment => Spared past → Proper cfg past moment)
    (fun past world => Spared past → Timed home past world) := by
  intro past world operation answer after other step timed
  have keeps : operation.keepsTable = true := by
    cases operation <;> first | rfl | simp [Of, Operation.kind] at other
  refine ⟨fun _ => proper_of_keeps keeps ?_ step.1, fun spared => ?_⟩
  · rintro owner repo id rfl
    simp [Of, Operation.kind] at other
  · refine (timed spared.of_cons).next ?_ (offlineSince_same keeps step.1)
    rintro ⟨owner, repo, asked⟩
    simp only at asked
    subst asked
    simp [Of, Operation.kind] at other

theorem guards_of_within {program : Py α}
    (within : program.Within (Of [.plain, .starts, .accounts]))
    (timed : Timed home past world) :
    Guards cfg home (fun past world _ => Timed home past world) program past world :=
  Attempt.mono (within.guarded others_keep fun _ => timed)
    (fun _ _ _ holds => holds) fun _ _ _ holds _ => holds

/-! ## Going through a listing -/

/-- A listing that is right about its runners: they are at home, and an id has one
entry. -/
structure Sound (home : Key → String) (repo : String) (items : List Value) : Prop where
  atHome : ∀ key, Contains items key → home key = repo
  unique : ∀ one ∈ items, ∀ other ∈ items, ∀ key,
    HasKey key one → HasKey key other → one = other

/-- `rest` is what is left of the listing. -/
structure Mid (home : Key → String) (repo : String) (items : List Value) (now : ℚ)
    (older : Past interface World) (rest : List Value) (past : Past interface World)
    (world : World) : Prop where
  sweeping : Sweeping repo items now older past
  timing : Timing home older rest past world

theorem Mid.next {operation : Operation} {answer : Answer operation}
    (mid : Mid home repo items now older rest past world)
    (silent : Silent ⟨world, operation, answer, after⟩)
    (keeps : operation.keepsTable = true)
    (step : system.Step world operation answer after) :
    Mid home repo items now older rest (⟨world, operation, answer, after⟩ :: past) after :=
  ⟨mid.sweeping.cons silent, mid.timing.next silent.2 (offlineSince_same keeps step)⟩

theorem Sound.allOffline (sound : Sound home repo items) {runner : Value}
    (member : runner ∈ items) (offline : hasStatus "offline" runner = true)
    (keyed : HasKey key runner) : AllOffline items key := by
  intro other otherMember otherKeyed
  rw [sound.unique other otherMember runner member key otherKeyed keyed]
  exact offline

/-- An operation in the middle of a listing that only looks at the process. -/
theorem silent_of {operation : Operation} {answer : Answer operation}
    (notTime : operation ≠ .time)
    (notListing : ∀ owner repo, operation ≠ .github (.listRunners owner repo)) :
    Silent (⟨world, operation, answer, after⟩ : Moment interface World) := by
  refine ⟨notTime, ?_⟩
  rintro ⟨owner, repo, asked⟩
  exact notListing owner repo asked

theorem hasKey_iff {runner id : Value} (found : runner.subscript "id" = .ok id) :
    HasKey key runner ↔ id.key = .ok (some key) := by
  rw [HasKey, keyOf, found]
  exact Iff.rfl

theorem graceOf_setGrace {done : Unit} {set : Key}
    (step : system.Step world (.setGrace set now) done after) (key : Key) :
    graceOf key after = if key = set then some now else graceOf key world := by
  rw [graceOf, HostStep.remembering step]
  exact Table.lookup_put set key now world.memory.offlineSince

theorem graceOf_popGrace {done : Unit} {popped : Key}
    (step : system.Step world (.popGrace popped) done after) (key : Key) :
    graceOf key after = if key = popped then none else graceOf key world := by
  rw [graceOf, HostStep.remembering step]
  exact Table.lookup_pop popped key world.memory.offlineSince

/-- The grace of an offline runner starts now, unless it has started before. -/
theorem startGrace_guards {runner id : Value} (sound : Sound home repo items)
    (found : runner.subscript "id" = .ok id) (member : runner ∈ items)
    (offline : hasStatus "offline" runner = true)
    (mid : Mid home repo items now older (runner :: rest) past world) :
    Guards cfg home
      (fun past world first => Mid home repo items now older rest past world ∧
        ∀ key, id.key = .ok (some key) → OfflineSince repo key first past)
      (startGrace id now) past world := by
  apply Guards.builtin
  intro key keyIs
  cases key with
  | none =>
      refine fun _ => ⟨⟨mid.sweeping, mid.timing.tail ?_⟩, ?_⟩
      · intro key first keyed _
        rw [hasKey_iff found, keyIs] at keyed
        cases keyed
      · intro key keyed
        rw [keyIs] at keyed
        cases keyed
  | some key =>
      have keyed : HasKey key runner := (hasKey_iff found).mpr keyIs
      have listed : Contains items key := ⟨runner, member, keyed⟩
      have allOffline := sound.allOffline member offline keyed
      have own {other : Key} (same : HasKey other runner) : other = key := by
        rw [hasKey_iff found, keyIs] at same
        cases same
        rfl
      apply ask_bind.mpr
      intro memory world₁ step₁
      obtain rfl : memory = world.memory := HostStep.recalling step₁.1
      have silent₁ : Silent (⟨world, .load, world.memory, world₁⟩ : Moment interface World) :=
        silent_of (by simp) (by simp)
      have mid₁ := mid.next silent₁ rfl step₁.1
      refine ⟨fun _ => proper_of_keeps rfl (by simp) step₁.1, ?_⟩
      cases entry : world.memory.offlineSince.lookup key with
      | some first =>
          have backed : OfflineSince repo key first
              (⟨world, .load, world.memory, world₁⟩ :: past) := by
            rw [← sound.atHome key listed]
            rcases mid.timing key first entry with backed | ⟨_, backed⟩
            · exact backed.cons silent₁.2
            · exact mid₁.sweeping.revive backed fun _ => allOffline
          refine fun _ => ⟨⟨mid₁.sweeping, mid₁.timing.tail ?_⟩, ?_⟩
          · intro other started same set
            rw [own same, graceOf, offlineSince_same rfl step₁.1, entry] at set
            cases set
            rw [own same, sound.atHome key listed]
            exact backed
          · intro other same
            rw [keyIs] at same
            cases same
            exact backed
      | none =>
          apply ask_bind.mpr
          intro done world₂ step₂
          have silent₂ : Silent
              (⟨world₁, .setGrace key now, done, world₂⟩ : Moment interface World) :=
            silent_of (by simp) (by simp)
          have sweeping₂ := mid₁.sweeping.cons silent₂
          have backed := sweeping₂.offlineSince listed allOffline
          refine ⟨fun _ => ⟨fun _ _ _ _ impossible => (by cases impossible), ?_⟩,
            fun _ => ⟨⟨sweeping₂, ?_⟩, ?_⟩⟩
          · intro other changed
            by_cases same : other = key
            · exact same ▸ ⟨repo, items, mid₁.sweeping.latestListing, listed⟩
            · refine absurd ?_ changed
              rw [graceOf_setGrace step₂.1, if_neg same]
          · intro other first set
            rw [graceOf_setGrace step₂.1] at set
            by_cases same : other = key
            · rw [if_pos same] at set
              cases set
              rw [same, sound.atHome key listed]
              exact .inl backed
            · rw [if_neg same] at set
              rcases mid₁.timing other first set with before | ⟨⟨one, rest, its⟩, before⟩
              · exact .inl (before.cons silent₂.2)
              · rcases List.mem_cons.mp rest with rfl | rest
                · exact absurd (own its) same
                · exact .inr ⟨⟨one, rest, its⟩, before⟩
          · intro other same
            rw [keyIs] at same
            cases same
            exact backed

/-- The entry of a runner that was gone through is dropped. -/
theorem endGrace_guards {runner id : Value} (found : runner.subscript "id" = .ok id)
    (member : runner ∈ items)
    (mid : Mid home repo items now older (runner :: rest) past world) :
    Guards cfg home (fun past world _ => Mid home repo items now older rest past world)
      (endGrace id) past world := by
  apply ask_bind.mpr
  intro memory world₁ step₁
  obtain rfl : memory = world.memory := HostStep.recalling step₁.1
  have silent₁ : Silent (⟨world, .load, world.memory, world₁⟩ : Moment interface World) :=
    silent_of (by simp) (by simp)
  have mid₁ := mid.next silent₁ rfl step₁.1
  have same₁ := offlineSince_same rfl step₁.1
  refine ⟨fun _ => proper_of_keeps rfl (by simp) step₁.1, ?_⟩
  split
  · next empty =>
      refine fun _ => ⟨mid₁.sweeping, mid₁.timing.tail ?_⟩
      intro key first _ entry
      rw [graceOf, same₁, empty] at entry
      cases entry
  · apply Guards.builtin
    intro key keyIs
    cases key with
    | none =>
        refine fun _ => ⟨mid₁.sweeping, mid₁.timing.tail ?_⟩
        intro key first keyed _
        rw [hasKey_iff found, keyIs] at keyed
        cases keyed
    | some key =>
        have keyed : HasKey key runner := (hasKey_iff found).mpr keyIs
        apply Attempt.lift_iff.mpr
        intro done world₂ step₂
        have silent₂ : Silent
            (⟨world₁, .popGrace key, done, world₂⟩ : Moment interface World) :=
          silent_of (by simp) (by simp)
        refine ⟨fun _ => ⟨fun _ _ _ _ impossible => (by cases impossible), ?_⟩,
          fun _ => ⟨mid₁.sweeping.cons silent₂, ?_⟩⟩
        · intro other changed
          by_cases same : other = key
          · exact same ▸ ⟨repo, items, mid₁.sweeping.latestListing, runner, member, keyed⟩
          · refine absurd ?_ changed
            rw [graceOf_popGrace step₂.1, if_neg same]
        · intro other first set
          rw [graceOf_popGrace step₂.1] at set
          by_cases same : other = key
          · rw [if_pos same] at set
            cases set
          · rw [if_neg same] at set
            rcases mid₁.timing other first set with before | ⟨⟨one, rest, its⟩, before⟩
            · exact .inl (before.cons silent₂.2)
            · rcases List.mem_cons.mp rest with rfl | rest
              · rw [hasKey_iff found, keyIs] at its
                cases its
                exact absurd rfl same
              · exact .inr ⟨⟨one, rest, its⟩, before⟩

theorem Mid.done {past : Past interface World}
    (mid : Mid home repo items now older [] past world) : Timed home past world :=
  mid.timing.timed

/-- What is left of a listing is spared by a deletion that ends the tick. -/
theorem Mid.spared {owner : String} {id : Value} {raised : Exception}
    (mid : Mid home repo items now older rest past world) (within : rest ⊆ items)
    (step : system.Step world (.github (.deleteRunner owner repo id)) (.error raised) after)
    (spares : Spares past
      ⟨world, .github (.deleteRunner owner repo id), .error raised, after⟩)
    (caught : raised.caughtByTick = true) :
    Timed home (⟨world, .github (.deleteRunner owner repo id), .error raised, after⟩ ::
      past) after := by
  intro key first entry
  rw [graceOf, offlineSince_same rfl step] at entry
  have silent : ¬IsListing (⟨world, .github (.deleteRunner owner repo id), .error raised,
      after⟩ : Moment interface World) := by
    rintro ⟨_, _, impossible⟩
    cases impossible
  refine OfflineSince.cons ?_ silent
  rcases mid.timing key first entry with backed | ⟨⟨runner, member, keyed⟩, backed⟩
  · exact backed
  · have listed : Contains items key := ⟨runner, within member, keyed⟩
    rcases spares _ _ _ _ _ _ rfl caught repo items mid.sweeping.latestListing key listed
      with offline | none
    · exact mid.sweeping.revive backed fun _ => offline
    · rw [graceOf, entry] at none
      cases none

/-- Recording the rate keeps what counting keeps. -/
theorem recordRate_guards {inv : Past interface World → World → Prop}
    (response : Response)
    (counts : ∀ past world remaining counted after,
      system.Step world (.count (.rateRemaining remaining)) counted after → inv past world →
      inv (⟨world, .count (.rateRemaining remaining), counted, after⟩ :: past) after)
    (holds : inv past world) :
    Guards cfg home (fun past world _ => inv past world) (recordRate response) past
      world := by
  unfold recordRate
  split
  · exact fun _ => holds
  · apply Guards.builtin
    intro remaining _
    apply Attempt.lift_iff.mpr
    intro counted world₁ step₁
    exact ⟨fun _ => proper_of_keeps rfl (by simp) step₁.1,
      fun _ => counts past world remaining counted world₁ step₁.1 holds⟩

theorem Mid.count (past : Past interface World) (world : World) (remaining : Int)
    (counted : Unit) (after : World)
    (step : system.Step world (.count (.rateRemaining remaining)) counted after)
    (mid : Mid home repo items now older rest past world) :
    Mid home repo items now older rest
      (⟨world, .count (.rateRemaining remaining), counted, after⟩ :: past) after :=
  mid.next (silent_of (by simp) (by simp)) rfl step

theorem deleteRunner_guards {id : Value} {first : ℚ} (within : rest ⊆ items)
    (mid : Mid home repo items now older rest past world)
    (backed : ∀ key, id.key = .ok (some key) → OfflineSince repo key first past)
    (elapsed : cfg.orphanReapSeconds ≤ now - first) :
    Guards cfg home (fun past world _ => Mid home repo items now older rest past world)
      (deleteRunner cfg repo id) past world := by
  have requested : Guards cfg home
      (fun past world _ => Mid home repo items now older rest past world)
      (request (.deleteRunner cfg.owner repo id)) past world := by
    apply ask_bind.mpr
    intro answer world₁ step₁
    have silent : Silent (⟨world, .github (.deleteRunner cfg.owner repo id), answer, world₁⟩ :
        Moment interface World) := silent_of (by simp) (by simp)
    have next := mid.next silent rfl step₁.1
    constructor
    · refine fun _ => ⟨fun owner other same key asked keyed => ?_, fun key changed => ?_⟩
      · cases asked
        exact ⟨now, first, mid.sweeping.latestTime, backed key keyed, elapsed⟩
      · refine absurd ?_ changed
        rw [graceOf, offlineSince_same rfl step₁.1]
        rfl
    · cases answer with
      | error raised =>
          exact fun caught spared => mid.spared within step₁.1 (spared [] _ _ rfl) caught
      | ok response =>
          exact Guards.bind (recordRate_guards response Mid.count next)
            fun past world _ _ mid _ => mid
  exact Guards.bind requested fun _ _ _ _ mid _ => mid

theorem reapRunner_guards {runner : Value} (sound : Sound home repo items)
    (within : runner :: rest ⊆ items)
    (mid : Mid home repo items now older (runner :: rest) past world) :
    Guards cfg home (fun past world _ => Mid home repo items now older rest past world)
      (reapRunner cfg repo now runner) past world := by
  have ⟨member, others⟩ := List.cons_subset.mp within
  apply Guards.builtin
  intro id found
  split
  · next offline =>
      apply Guards.bind (startGrace_guards sound found member offline mid)
      intro past₁ world₁ first _ ⟨mid₁, backed⟩
      split
      · next elapsed =>
          apply Guards.bind (deleteRunner_guards others mid₁ backed elapsed)
          intro past₂ world₂ _ _ mid₂
          exact endGrace_guards found member ⟨mid₂.sweeping, mid₂.timing.weaken runner⟩
      · exact fun _ => mid₁
  · exact endGrace_guards found member mid

theorem reapRunners_guards (sound : Sound home repo items) (within : rest ⊆ items)
    (mid : Mid home repo items now older rest past world) :
    Guards cfg home (fun past world _ => Timed home past world)
      (reapRunners cfg repo now rest) past world := by
  induction rest generalizing past world with
  | nil => exact fun _ => mid.done
  | cons runner rest induction =>
      apply Guards.bind (reapRunner_guards sound within mid)
      exact fun past world _ _ mid => induction (List.subset_of_cons_subset within) mid

/-- What is known once a listing was asked for: it was right and nothing was done about
it, or there is nothing to go through. -/
def Heard (home : Key → String) (repo : String) (runners : Value)
    (past : Past interface World) (world : World) : Prop :=
  ∀ items, runners.iterate = .ok items →
    (∃ middle listing older, past = middle ++ listing :: older ∧
      Lists repo items listing ∧ Sound home repo items ∧
      (∀ moment ∈ middle, Silent moment) ∧ Timed home older world) ∨
    items = [] ∧ Timed home past world

theorem reapOfflineRunners_guards {runners : Value}
    (heard : Heard home repo runners past world) :
    Guards cfg home (fun past world _ => Timed home past world)
      (reapOfflineRunners cfg repo runners) past world := by
  apply ask_bind.mpr
  intro now world₁ step₁
  have notListing : ¬IsListing (⟨world, .time, now, world₁⟩ : Moment interface World) := by
    rintro ⟨_, _, impossible⟩
    cases impossible
  have same := offlineSince_same rfl step₁.1
  refine ⟨fun _ => proper_of_keeps rfl (by simp) step₁.1, ?_⟩
  apply Guards.builtin
  intro items iterated
  have swept : Guards cfg home (fun past world _ => Timed home past world)
      (reapRunners cfg repo now items) (⟨world, .time, now, world₁⟩ :: past) world₁ := by
    rcases heard items iterated with
      ⟨middle, listing, older, rfl, lists, sound, quiet, timed⟩ | ⟨rfl, timed⟩
    · have sweeping : Sweeping repo items now older
          (⟨world, .time, now, world₁⟩ :: (middle ++ listing :: older)) :=
        ⟨[], ⟨world, world₁, middle, listing, rfl, lists, quiet⟩, by simp⟩
      exact reapRunners_guards sound (List.Subset.refl _)
        ⟨sweeping, sweeping.timing (timed.move same)⟩
    · exact fun _ => timed.next notListing same
  exact Guards.bind swept fun past world _ _ timed _ => timed

/-- The answer to a request for a listing, if it is not one, changes nothing. -/
theorem Timed.unlisted (timed : Timed home past world)
    (other : ∀ repo items, ¬Lists repo items moment)
    (same : after.memory.offlineSince = world.memory.offlineSince) :
    Timed home (moment :: past) after :=
  fun key first entry => (timed.move same key first entry).cons_of_not_lists (other _)

/-- Between a request for a listing and what is done about it. -/
def Asked (home : Key → String) (listing : Moment interface World)
    (older past : Past interface World) (world : World) : Prop :=
  ∃ middle, past = middle ++ listing :: older ∧ (∀ moment ∈ middle, Silent moment) ∧
    Timed home older world

theorem Asked.count {listing : Moment interface World} (past : Past interface World)
    (world : World) (tally : Tally) (counted : Unit) (after : World)
    (step : system.Step world (.count tally) counted after)
    (asked : Asked home listing older past world) :
    Asked home listing older (⟨world, .count tally, counted, after⟩ :: past) after := by
  rcases asked with ⟨middle, rfl, quiet, timed⟩
  refine ⟨_ :: middle, rfl, List.forall_mem_cons.mpr ⟨?_, quiet⟩, ?_⟩
  · exact silent_of (by simp) (by simp)
  · exact timed.move (offlineSince_same rfl step)

/-- If it was no listing, nothing has changed. -/
theorem Asked.timed {listing : Moment interface World}
    (asked : Asked home listing older past world)
    (other : ∀ repo items, ¬Lists repo items listing) : Timed home past world := by
  rcases asked with ⟨middle, rfl, quiet, timed⟩
  intro key first entry
  refine OfflineSince.extend ((timed key first entry).cons_of_not_lists (other _)) ?_
  exact fun moment member others lists => absurd lists.isListing (quiet moment member).2

theorem listRunners_guards (timed : Timed home past world) :
    Guards cfg home (fun past world runners => Heard home repo runners past world)
      (listRunners cfg repo) past world := by
  have requested : Guards cfg home
      (fun later world response => ∃ before after, AtHome home
          ⟨before, .github (.listRunners cfg.owner repo), .ok response, after⟩ ∧
        UniqueIds ⟨before, .github (.listRunners cfg.owner repo), .ok response, after⟩ ∧
        Asked home ⟨before, .github (.listRunners cfg.owner repo), .ok response, after⟩ past
          later world)
      (request (.listRunners cfg.owner repo)) past world := by
    apply ask_bind.mpr
    intro answer world₁ step₁
    have same := offlineSince_same rfl step₁.1
    refine ⟨fun _ => proper_of_keeps rfl (by simp) step₁.1, ?_⟩
    cases answer with
    | error raised =>
        refine fun _ _ => timed.unlisted ?_ same
        rintro _ _ ⟨_, _, _, _, impossible, _⟩
        cases impossible
    | ok response =>
        have asked : Asked home
            ⟨world, .github (.listRunners cfg.owner repo), .ok response, world₁⟩ past
            (⟨world, .github (.listRunners cfg.owner repo), .ok response, world₁⟩ :: past)
            world₁ := ⟨[], rfl, by simp, timed.move same⟩
        apply Guards.bind (recordRate_guards response
          (fun past world remaining => Asked.count past world (.rateRemaining remaining)) asked)
        exact fun later world₂ _ _ asked _ =>
          ⟨world, world₁, step₁.2.1, step₁.2.2, asked⟩
  apply Guards.bind requested
  intro past₁ world₁ r _ ⟨before, after, atHome, unique, asked⟩
  have refused (status : r.statusCode ≠ 200) : ∀ other items,
      ¬Lists other items
        ⟨before, .github (.listRunners cfg.owner repo), .ok r, after⟩ := by
    rintro _ _ ⟨_, _, _, _, same, worked, _⟩
    cases same
    exact status worked
  have nothing {later : Past interface World} {world : World}
      (asked : Asked home ⟨before, .github (.listRunners cfg.owner repo), .ok r, after⟩ past
        later world) (status : r.statusCode ≠ 200) :
      Heard home repo (.list []) later world := by
    intro items iterated
    cases iterated
    exact .inr ⟨rfl, asked.timed (refused status)⟩
  split
  · next denied =>
      have status : r.statusCode ≠ 200 := by
        intro worked
        simp [Response.denied, worked] at denied
      apply ask_bind.mpr
      intro counted world₂ step₂
      exact ⟨fun _ => proper_of_keeps rfl (by simp) step₂.1,
        fun _ => nothing (asked.count _ _ _ _ _ step₂.1) status⟩
  · split
    · next status => exact fun _ => nothing asked status
    · next worked =>
        apply builtin_iff.mpr
        cases got : r.get "runners" (.list []) with
        | error raised => exact fun impossible => by cases impossible
        | ok runners =>
            intro _ items iterated
            have listed : r.runners = .ok items := by
              rw [Response.runners, got]
              exact iterated
            have lists : Lists repo items
                ⟨before, .github (.listRunners cfg.owner repo), .ok r, after⟩ :=
              ⟨before, cfg.owner, r, after, rfl, not_not.mp worked, listed⟩
            rcases asked with ⟨middle, split, quiet, timed⟩
            exact .inl ⟨middle, _, past, split, lists,
              ⟨fun key => atHome repo items key lists, unique repo items lists⟩, quiet, timed⟩

theorem survey_guards (live : List Row) (repos : List String)
    (perRepo : Table String RepoStatus) (timed : Timed home past world) :
    Guards cfg home (fun past world _ => Timed home past world)
      (survey cfg live repos perRepo) past world := by
  induction repos generalizing perRepo past world with
  | nil => exact fun _ => timed
  | cons repo rest induction =>
      apply Guards.bind (listRunners_guards timed)
      intro past₁ world₁ runners _ heard₁
      apply Guards.bind (reapOfflineRunners_guards heard₁)
      intro past₂ world₂ items _ timed₂
      apply Guards.bind (guards_of_within (Of.wider (queuedJobs_within repo) (by decide)) timed₂)
      exact fun past world queued _ timed => induction _ timed

theorem tick_guards (timed : Timed home past world) :
    Guards cfg home (fun past world _ => Timed home past world) (tick cfg) past world := by
  apply Guards.bind
    (guards_of_within (Of.wider inspectRunnerImage_within (by decide)) timed)
  intro past₁ world₁ _ _ timed₁
  apply Guards.bind
    (guards_of_within (Of.wider reapExitedContainers_within (by decide)) timed₁)
  intro past₂ world₂ orphans _ timed₂
  have running : runningJobContainers.Within (Of [.plain, .starts, .accounts]) :=
    (docker_within .listRunning (by decide)).bind fun _ => Attempt.within_pure _
  apply Guards.bind (guards_of_within running timed₂)
  intro past₃ world₃ live _ timed₃
  apply Guards.bind (survey_guards live cfg.repos [] timed₃)
  intro past₄ world₄ perRepo _ timed₄
  apply Guards.bind
    (guards_of_within (Of.wider (maybeSpawn_within _ _) (by decide)) timed₄)
  intro past₅ world₅ _ _ timed₅
  exact guards_of_within (Of.wider (writeStatus_within _ _ _) (by decide)) timed₅

end

/-! ## Runs -/

def Belongs (trace : List (Moment interface World)) (repo : String) (key : Key) : Prop :=
  ∃ moment ∈ trace, ∃ items, Lists repo items moment ∧ Contains items key

/-- Runners are deleted on the evidence of their own repository alone, and no listing of
another one changes since when they are offline. -/
structure OwnEvidence {cfg : Config} {world : World} (run : SupervisorRun cfg world) :
    Prop where
  due : ∀ earlier moment later, run.moments = earlier ++ moment :: later →
    ∀ owner repo id key, moment.operation = .github (.deleteRunner owner repo id) →
    id.key = .ok (some key) → Due cfg repo key (earlier.reverse ++ run.past)
  apart : ∀ earlier moment later, run.moments = earlier ++ moment :: later →
    ∀ repo key, Belongs run.trace repo key →
    graceOf key moment.after ≠ graceOf key moment.before →
    ∃ items, LatestListing repo items (earlier.reverse ++ run.past) ∧ Contains items key

theorem LatestListing.mem {repo : String} {items : List Value}
    {past : Past interface World} (latest : LatestListing repo items past) :
    ∃ moment ∈ past, Lists repo items moment := by
  rcases latest with ⟨newer, listing, older, rfl, lists, _⟩
  exact ⟨listing, by simp, lists⟩

/-- Runners are reaped on their own evidence in every run in which no two repositories
list the same id and no listing is left half gone through. -/
theorem reaped_on_own_evidence {cfg : Config} {world : World}
    (run : SupervisorRun cfg world) (started : world.memory.offlineSince = [])
    (unique : ∀ moment ∈ run.trace, UniqueIds moment)
    (disjoint : ∀ repo other key, Belongs run.trace repo key →
      Belongs run.trace other key → repo = other)
    (spared : Spared run.trace.reverse) : OwnEvidence run := by
  classical
  let home (key : Key) : String :=
    if own : ∃ repo, Belongs run.trace repo key then own.choose else ""
  have atHome : ∀ moment ∈ run.trace, AtHome home moment := by
    intro moment member repo items key lists listed
    have own : ∃ repo, Belongs run.trace repo key := ⟨repo, moment, member, items, lists, listed⟩
    rw [show home key = own.choose from dif_pos own]
    exact disjoint _ _ key own.choose_spec ⟨moment, member, items, lists, listed⟩
  have maintains : Maintains (separate home) (GithubRunner.run cfg)
      (fun past _ world => Spared past → Timed home past world)
      fun past moment => Spared past → Proper cfg past moment := by
    intro past phase world timed
    apply Attempt.any_error
    refine run_preserves (others_keep.mono fun _ plain => Of.mono plain (by decide))
      (fun past world timed => ?_) phase past world timed
    exact Guards.assume fun spared => tick_guards (timed spared)
  have initially : Spared [] → Timed home [] world := by
    intro _ key first entry
    rw [graceOf, started] at entry
    cases entry
  have known {earlier later : List (Moment interface World)}
      {moment : Moment interface World} (split : run.moments = earlier ++ moment :: later) :
      Proper cfg (earlier.reverse ++ run.past) moment := by
    refine LoopRun.good_of maintains initially
      (run.restrict fun moment member => ⟨atHome moment member, unique moment member⟩)
      split (spared.of_suffix ⟨later.reverse ++ [moment], ?_⟩)
    simp only [LoopRun.trace, LoopRun.past, List.reverse_append, split, List.reverse_cons,
      List.append_assoc]
    rfl
  constructor
  · exact fun earlier moment later split => (known split).due
  · intro earlier moment later split repo key belongs changed
    rcases (known split).apart key changed with ⟨other, items, latest, listed⟩
    rcases latest.mem with ⟨listing, member, lists⟩
    have same : other = repo := disjoint other repo key
      ⟨listing, LoopRun.mem_trace split member, items, lists, listed⟩ belongs
    exact ⟨items, same ▸ latest, listed⟩

/-! ## Pilots -/

def offlineRunner : Value := .dict [("id", .int 7), ("status", .str "offline")]

/-- Every repository lists the same offline runner. -/
def crowd : Script where
  docker _ := exits 0 ""
  github
    | .listRunners _ _ => responds 200 [("runners", .list [offlineRunner])]
    | .generateJit _ _ _ _ => responds 500 []
    | _ => responds 200 []

def crowded (cfg : Config) : SupervisorRun cfg pilotWorld := follow .begin crowd

/-- One repository, whose offline runners are deleted at once. -/
def hastyConfig : Config := { pilotConfig with orphanReapSeconds := 0 }

def sharedConfig : Config := { pilotConfig with repos := ["a", "b"] }

def listedRepo (moment : Moment interface World) : Option String :=
  match moment.operation with
  | .github (.listRunners _ repo) => some repo
  | _ => none

theorem Lists.listedRepo {repo : String} {items : List Value}
    {moment : Moment interface World} (lists : Lists repo items moment) :
    GithubRunner.listedRepo moment = some repo := by
  rcases lists with ⟨before, owner, response, after, rfl, _⟩
  rfl

theorem crowd_unique (past : Past interface World) (world : World)
    (operation : Operation) : UniqueIds ⟨world, operation,
      (host crowd past world operation).1, (host crowd past world operation).2⟩ := by
  rintro repo items ⟨before, owner, response, after, same, _, listed⟩
  cases operation with
  | github call =>
      injection same with _ asked answered
      cases asked
      cases answered
      cases listed
      intro one member other otherMember key _ _
      rw [List.mem_singleton.mp member, List.mem_singleton.mp otherMember]
  | _ => injection same with _ asked; cases asked

theorem crowd_spares (past : Past interface World) (world : World)
    (operation : Operation) : ∀ older, Spares older ⟨world, operation,
      (host crowd past world operation).1, (host crowd past world operation).2⟩ := by
  intro older before owner repo id raised after same
  cases operation with
  | github call =>
      injection same with _ asked answered
      cases asked
      cases answered
  | _ => injection same with _ asked; cases asked

theorem hasty_alone : ∀ moment ∈ (crowded hastyConfig).trace,
    listedRepo moment = none ∨ listedRepo moment = some "a" := by
  decide +kernel

theorem reaped_on_own_evidence_hasty : OwnEvidence (crowded hastyConfig) := by
  have alone {repo : String} {key : Key}
      (belongs : Belongs (crowded hastyConfig).trace repo key) : repo = "a" := by
    rcases belongs with ⟨moment, member, items, lists, _⟩
    have listed := lists.listedRepo
    rcases hasty_alone moment member with none | same
    · cases none.symm.trans listed
    · exact Option.some.inj (listed.symm.trans same)
  apply reaped_on_own_evidence
  · rfl
  · exact follow_each (by simp [LoopRun.begin]) crowd_unique
  · exact fun repo other key first second => (alone first).trans (alone second).symm
  · have each : ∀ moment ∈ (crowded hastyConfig).trace, ∀ older, Spares older moment :=
      follow_each (by simp [LoopRun.begin]) crowd_spares
    intro newer moment older split
    apply each moment
    rw [← List.mem_reverse, split]
    simp

/-- The repository and the key of a runner that is deleted. -/
def deletes (moment : Moment interface World) : Option (String × Option Key) :=
  match moment.operation with
  | .github (.deleteRunner _ repo id) => some (repo, id.key.toOption.join)
  | _ => none

def reading : Moment interface World → Option ℚ
  | ⟨_, .time, now, _⟩ => some now
  | _ => none

/-- Since the repository was asked for its runners the clock has read nothing else. -/
def ReadsOnly (repo : String) (now : ℚ) : Past interface World → Bool
  | [] => true
  | moment :: older => (older.all fun earlier => listedRepo earlier ≠ some repo) ||
      reading moment = none || reading moment = some now

/-- The runner is deleted for a repository that showed it just now. -/
def Collides : Past interface World → Bool
  | [] => false
  | moment :: past => deletes moment = some ("b", some (.number 7)) &&
      past.findSome? reading = some 12 && past.tails.all (ReadsOnly "b" 12)

theorem crowd_collides :
    (crowded sharedConfig).moments.reverse.tails.any Collides = true := by
  decide +kernel

theorem LatestTime.findSome {now : ℚ} {past : Past interface World}
    (latest : LatestTime now past) : past.findSome? reading = some now := by
  rcases latest with ⟨newer, before, after, older, rfl, none⟩
  induction newer with
  | nil => rfl
  | cons moment newer induction =>
      have ⟨first, others⟩ := List.forall_mem_cons.mp none
      have silent : reading moment = Option.none := by
        rcases moment with ⟨world, operation, answer, later⟩
        cases operation with
        | time => exact absurd rfl first
        | _ => rfl
      rw [List.cons_append, List.findSome?_cons_of_isNone (by simp [silent])]
      exact induction others

theorem OfflineSince.reads {repo : String} {key : Key} {first now : ℚ}
    {past : Past interface World} (offline : OfflineSince repo key first past)
    (only : past.tails.all (ReadsOnly repo now) = true) : first = now := by
  rcases offline with
    ⟨items, older, newer, ⟨before, after, middle, listing, rfl, lists, _⟩, _⟩
  have here := List.all_eq_true.mp only _ ((List.mem_tails _ _).mpr ⟨newer, rfl⟩)
  simp only [ReadsOnly, reading, Bool.or_eq_true, List.all_eq_true, decide_eq_true_eq,
    reduceCtorEq, or_false, Option.some.injEq] at here
  rcases here with never | same
  · exact absurd lists.listedRepo (never listing (by simp))
  · exact same

/-- An id that two repositories share lets the one's listing start the grace of the
other's runner, which is deleted the first time it is seen. -/
theorem reaped_on_foreign_evidence : ∃ run : SupervisorRun sharedConfig pilotWorld,
    (∀ moment ∈ run.trace, UniqueIds moment) ∧ ¬OwnEvidence run := by
  refine ⟨crowded sharedConfig, follow_each (by simp [LoopRun.begin]) crowd_unique, ?_⟩
  intro own
  rcases List.any_eq_true.mp crowd_collides with ⟨tail, suffix, collides⟩
  rcases (List.mem_tails _ _).mp suffix with ⟨newer, split⟩
  cases tail with
  | nil => cases collides
  | cons moment past =>
      simp only [Collides, Bool.and_eq_true, decide_eq_true_eq] at collides
      rcases collides with ⟨⟨deleted, latestRead⟩, only⟩
      have order : (crowded sharedConfig).moments =
          past.reverse ++ moment :: newer.reverse := by
        rw [← List.reverse_reverse (crowded sharedConfig).moments, ← split]
        simp
      unfold deletes at deleted
      split at deleted
      · next owner repo id asked =>
          injection deleted with pair
          injection pair with named keyed
          cases named
          have key : id.key = .ok (some (.number 7)) := by
            cases read : id.key with
            | error raised => simp [read, Except.toOption] at keyed
            | ok key =>
                rw [read] at keyed
                exact congrArg Except.ok keyed
          have due := own.due past.reverse moment newer.reverse order owner "b" id _ asked key
          have none : (crowded sharedConfig).past = [] := rfl
          rw [none, List.append_nil, List.reverse_reverse] at due
          rcases due with ⟨now, first, latest, offline, elapsed⟩
          have nowIs : now = 12 :=
            Option.some.inj (latest.findSome.symm.trans latestRead)
          rw [nowIs, offline.reads only] at elapsed
          exact absurd elapsed (by decide +kernel)
      · cases deleted

end Homelab.GithubRunner
