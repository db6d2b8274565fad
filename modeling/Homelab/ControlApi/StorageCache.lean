import Homelab.Effects.Trace
import Mathlib.Algebra.Order.Field.Rat
import Mathlib.Data.Rat.Floor
import Mathlib.Tactic.Linarith

/-! # The storage cache

Requests are answered from the last snapshot while one worker scans the disks. Requests and
workers meet only in sections that hold the cache's lock, and each of these is one event
here. Clock readings are exact.
-/

namespace Homelab.ControlApi

open Effects

variable {Stats : Type}

/-! ## The cache -/

/-- `STORAGE_CACHE_TTL`, in seconds. -/
def storageCacheTtl : ℚ := 60

structure Cache (Stats : Type) where
  data : Option Stats
  ts : ℚ
  refreshing : Bool
  lastError : Option String

def Cache.initial : Cache Stats where
  data := none
  ts := 0
  refreshing := false
  lastError := none

structure Extra where
  cached : Bool
  refreshing : Bool
  scanError : Option String

/-- A scan that failed is a result with nothing but an error in it. -/
abbrev Result (Stats : Type) := Except String Stats

/-- The locked section of `_refresh_storage_stats`. -/
def refreshStorageStats (result : Result Stats) (now : ℚ) (cache : Cache Stats) :
    Cache Stats where
  data := match result with
    | .ok stats => some stats
    | .error _ => cache.data
  lastError := match result with
    | .ok _ => none
    | .error text => some text
  ts := now
  refreshing := false

def Cache.known (cache : Cache Stats) : Bool :=
  cache.data.isSome || cache.lastError.isSome

def Cache.fresh (now : ℚ) (cache : Cache Stats) : Bool :=
  cache.known && decide (now - cache.ts < storageCacheTtl)

/-- How a call leaves its locked section: with a snapshot to return, without one, or by the
error of a thread that would not start. -/
inductive Leaving (Stats : Type)
  | snapshot (stats : Stats) (extra : Extra)
  | cold (extra : Extra)
  | raised

structure Entered (Stats : Type) where
  cache : Cache Stats
  spawned : Bool
  leaving : Leaving Stats

/-- The end of the locked section of `get_storage_stats`. -/
def leave (cached : Option Stats) (cache : Cache Stats) : Leaving Stats :=
  let extra : Extra := ⟨cached.isSome, cache.refreshing, cache.lastError⟩
  match cached with
  | some stats => .snapshot stats extra
  | none => .cold extra

/-- The locked section of `get_storage_stats`; `starts` tells whether a thread can be
started. -/
def getStorageStats (now : ℚ) (starts : Bool) (cache : Cache Stats) : Entered Stats :=
  let cached := cache.data
  if cache.fresh now = false ∧ cache.refreshing = false then
    let claimed := { cache with refreshing := true }
    if starts then ⟨claimed, true, leave cached claimed⟩
    else ⟨{ claimed with refreshing := false }, false, .raised⟩
  else ⟨cache, false, leave cached cache⟩

structure Usage where
  total : Nat
  used : Nat
  free : Nat

/-- To one decimal place, ties to the even one. -/
def roundTenth (value : ℚ) : ℚ :=
  let tenths := value * 10
  let below := tenths.floor
  let excess := tenths - below
  if excess < 1 / 2 ∨ excess = 1 / 2 ∧ below % 2 = 0 then below / 10 else (below + 1) / 10

def Usage.percent (usage : Usage) : ℚ :=
  if usage.total = 0 then 0 else roundTenth (usage.used / usage.total * 100)

inductive Answer (Stats : Type)
  | snapshot (stats : Stats) (extra : Extra)
  | capacity (usage : Usage) (usePercent : ℚ) (extra : Extra)
  | unreadable (error : String) (extra : Extra)

/-- The rest of `get_storage_stats`, without the lock. -/
def coldStart (usage : Except String Usage) (extra : Extra) : Answer Stats :=
  match usage with
  | .ok usage => .capacity usage usage.percent extra
  | .error text => .unreadable text extra

/-! ## Interleavings -/

/-- A worker is scanning, or has a result since some time and waits for the lock. -/
inductive Worker (Stats : Type)
  | scanning
  | scanned (result : Result Stats) (since : ℚ)

structure World (Stats : Type) where
  cache : Cache Stats
  workers : List (Worker Stats)
  /-- The calls that left the lock without a snapshot. -/
  calls : List Extra
  clock : ℚ

def World.initial (clock : ℚ) : World Stats where
  cache := .initial
  workers := []
  calls := []
  clock := clock

inductive Event (Stats : Type)
  /-- A call takes the lock. -/
  | call (now : ℚ) (starts : Bool)
  /-- A call without a snapshot returns. -/
  | answer (call : Nat) (usage : Except String Usage)
  /-- The scan of a worker comes to its end. -/
  | scanned (worker : Nat) (result : Result Stats) (now : ℚ)
  /-- A worker takes the lock with its result, and is gone. -/
  | completed (worker : Nat) (now : ℚ)

def step (world : World Stats) : Event Stats → Option (World Stats)
  | .call now starts =>
      if world.clock ≤ now then
        let entered := getStorageStats now starts world.cache
        some {
          cache := entered.cache
          workers := if entered.spawned then .scanning :: world.workers else world.workers
          calls := match entered.leaving with
            | .cold extra => extra :: world.calls
            | _ => world.calls
          clock := now }
      else none
  | .answer call _ =>
      if call < world.calls.length then
        some { world with calls := world.calls.eraseIdx call }
      else none
  | .scanned worker result now =>
      match world.workers[worker]? with
      | some .scanning =>
          if world.clock ≤ now then
            some { world with
              workers := world.workers.set worker (.scanned result now)
              clock := now }
          else none
      | _ => none
  | .completed worker now =>
      match world.workers[worker]? with
      | some (.scanned result _) =>
          if world.clock ≤ now then
            some { world with
              cache := refreshStorageStats result now world.cache
              workers := world.workers.eraseIdx worker
              clock := now }
          else none
      | _ => none

/-! ## What a trace tells -/

abbrev Moment (Stats : Type) := Taken (World Stats) (Event Stats)

def spawnedAt (moment : Moment Stats) : Option ℚ :=
  match moment.event with
  | .call now starts =>
      if (getStorageStats now starts moment.before.cache).spawned then some now else none
  | _ => none

/-- When a scan came to its end, or its result was filed, if this moment did. -/
def finishedAt (moment : Moment Stats) : Option ℚ :=
  match moment.event with
  | .scanned _ _ now => some now
  | .completed _ now => some now
  | _ => none

def stored (moment : Moment Stats) : Option Stats :=
  match moment.event with
  | .completed worker _ =>
      match moment.before.workers[worker]? with
      | some (.scanned (.ok stats) _) => some stats
      | _ => none
  | _ => none

def lastStored (trace : List (Moment Stats)) : Option Stats :=
  trace.foldl (fun last moment => (stored moment).or last) none

@[simp] theorem lastStored_append (trace : List (Moment Stats)) (moment : Moment Stats) :
    lastStored (trace ++ [moment]) = (stored moment).or (lastStored trace) := by
  simp [lastStored]

/-! ## One section at a time -/

/-- A call starts a worker only where there is none and nothing is fresh; it leaves the rest
of the cache alone. -/
theorem getStorageStats_cases (now : ℚ) (starts : Bool) (cache : Cache Stats) :
    let entered := getStorageStats now starts cache
    (cache.fresh now = false ∧ cache.refreshing = false ∧ entered.spawned = true ∧
      entered.cache = { cache with refreshing := true } ∧
      entered.leaving = leave cache.data entered.cache) ∨
    (entered.spawned = false ∧ entered.cache = cache ∧
      (starts = false ∧ entered.leaving = .raised ∨
        entered.leaving = leave cache.data cache)) := by
  intro entered
  by_cases claims : cache.fresh now = false ∧ cache.refreshing = false
  · cases starts with
    | true =>
        left
        simp [entered, getStorageStats, claims]
    | false =>
        right
        have same : { cache with refreshing := false } = cache := by
          rw [← claims.2]
        simp [entered, getStorageStats, claims, same]
  · right
    simp [entered, getStorageStats, claims]

/-- What was known stays known. -/
theorem refreshStorageStats_known (result : Result Stats) (now : ℚ) (cache : Cache Stats) :
    (refreshStorageStats result now cache).known = true := by
  cases result <;> simp [refreshStorageStats, Cache.known]

/-- The time to live is over where a known cache is no longer fresh. -/
theorem ttl_over {now : ℚ} {cache : Cache Stats} (known : cache.known = true)
    (stale : cache.fresh now = false) : cache.ts + storageCacheTtl ≤ now := by
  have aged : ¬ now - cache.ts < storageCacheTtl := by
    simpa [Cache.fresh, known] using stale
  linarith

/-! ## Single flight -/

/-- The worker there is, and what the trace has left in the cache. -/
structure Settled (past : List (Moment Stats)) (world : World Stats) : Prop where
  workers : (world.cache.refreshing = true ∧ ∃ worker, world.workers = [worker]) ∨
    (world.cache.refreshing = false ∧ world.workers = [])
  data : world.cache.data = lastStored past
  finished : ∀ moment ∈ past, ∀ time, finishedAt moment = some time →
    time ≤ world.clock ∧
      (world.cache.refreshing = false → world.cache.known = true ∧ time ≤ world.cache.ts)

namespace Settled

variable {past : List (Moment Stats)} {world next : World Stats}

theorem initial (clock : ℚ) : Settled [] (World.initial clock : World Stats) where
  workers := .inr ⟨rfl, rfl⟩
  data := rfl
  finished := by simp

theorem call {now : ℚ} {starts : Bool} (settled : Settled past world)
    (taken : step world (.call now starts) = some next) :
    Settled (past ++ [⟨world, .call now starts⟩]) next := by
  simp only [step, Option.ite_none_right_eq_some, Option.some.injEq] at taken
  rcases taken with ⟨later, taken⟩
  have unstored : stored ⟨world, .call now starts⟩ = none := rfl
  have unfinished : finishedAt ⟨world, .call now starts⟩ = none := rfl
  rcases getStorageStats_cases now starts world.cache with
    ⟨_, idle, spawned, cache, _⟩ | ⟨spawned, cache, _⟩
  · have none_ : world.workers = [] := by
      rcases settled.workers with ⟨busy, _⟩ | ⟨_, none_⟩
      · simp [idle] at busy
      · exact none_
    subst taken
    constructor
    · left
      simp [cache, spawned, none_]
    · simp [cache, unstored, settled.data]
    · intro moment member time finished
      rcases List.mem_append.mp member with old | new
      · have before := (settled.finished moment old time finished).1
        exact ⟨before.trans later, by simp [cache]⟩
      · simp_all
  · subst taken
    constructor
    · simpa [cache, spawned] using settled.workers
    · simp [cache, unstored, settled.data]
    · intro moment member time finished
      rcases List.mem_append.mp member with old | new
      · have before := settled.finished moment old time finished
        exact ⟨before.1.trans later, by simpa [cache] using before.2⟩
      · simp_all

theorem answer {call : Nat} {usage : Except String Usage} (settled : Settled past world)
    (taken : step world (.answer call usage) = some next) :
    Settled (past ++ [⟨world, .answer call usage⟩]) next := by
  simp only [step, Option.ite_none_right_eq_some, Option.some.injEq] at taken
  rcases taken with ⟨_, taken⟩
  subst taken
  constructor
  · exact settled.workers
  · simpa [stored] using settled.data
  · intro moment member time finished
    rcases List.mem_append.mp member with old | new
    · exact settled.finished moment old time finished
    · simp_all [finishedAt]

theorem scanned {worker : Nat} {result : Result Stats} {now : ℚ}
    (settled : Settled past world)
    (taken : step world (.scanned worker result now) = some next) :
    Settled (past ++ [⟨world, .scanned worker result now⟩]) next := by
  simp only [step] at taken
  split at taken
  next scanning =>
    simp only [Option.ite_none_right_eq_some, Option.some.injEq] at taken
    rcases taken with ⟨later, taken⟩
    have busy : world.cache.refreshing = true ∧ ∃ worker, world.workers = [worker] := by
      rcases settled.workers with busy | ⟨_, none_⟩
      · exact busy
      · simp [none_] at scanning
    rcases busy with ⟨refreshing, only, workers⟩
    have first : worker = 0 := by
      simpa [workers] using (List.getElem?_eq_some_iff.mp scanning).1
    subst taken first
    constructor
    · left
      exact ⟨refreshing, by simp [workers]⟩
    · simpa [stored] using settled.data
    · intro moment member time finished
      rcases List.mem_append.mp member with old | new
      · have before := (settled.finished moment old time finished).1
        exact ⟨before.trans later, by simp [refreshing]⟩
      · have same : time = now := by simp_all [finishedAt]
        exact ⟨same.le, by simp [refreshing]⟩
  next => simp at taken

theorem completed {worker : Nat} {now : ℚ} (settled : Settled past world)
    (taken : step world (.completed worker now) = some next) :
    Settled (past ++ [⟨world, .completed worker now⟩]) next := by
  simp only [step] at taken
  split at taken
  next result since found =>
    simp only [Option.ite_none_right_eq_some, Option.some.injEq] at taken
    rcases taken with ⟨later, taken⟩
    have busy : ∃ worker, world.workers = [worker] := by
      rcases settled.workers with ⟨_, busy⟩ | ⟨_, none_⟩
      · exact busy
      · simp [none_] at found
    rcases busy with ⟨only, workers⟩
    have first : worker = 0 := by
      simpa [workers] using (List.getElem?_eq_some_iff.mp found).1
    subst taken first
    constructor
    · right
      simp [refreshStorageStats, workers]
    · cases result with
      | ok stats => simp [refreshStorageStats, stored, found]
      | error text => simp [refreshStorageStats, stored, found, settled.data]
    · intro moment member time finished
      have known := refreshStorageStats_known result now world.cache
      rcases List.mem_append.mp member with old | new
      · have before := (settled.finished moment old time finished).1.trans later
        exact ⟨before, fun _ => ⟨known, before⟩⟩
      · have same : time = now := by simp_all [finishedAt]
        exact ⟨same.le, fun _ => ⟨known, same.le⟩⟩
  next => simp at taken

theorem step {event : Event Stats} (settled : Settled past world)
    (taken : step world event = some next) : Settled (past ++ [⟨world, event⟩]) next := by
  cases event with
  | call now starts => exact settled.call taken
  | answer call usage => exact settled.answer taken
  | scanned worker result now => exact settled.scanned taken
  | completed worker now => exact settled.completed taken

end Settled

theorem settled {clock : ℚ} {trace : List (Moment Stats)} {world : World Stats}
    (run : Reaches step (World.initial clock) trace world) : Settled trace world :=
  run.invariant Settled (.initial clock) fun _ _ _ _ settled taken => settled.step taken

/-- A worker is started in a call, by a cache that nobody refreshes and that is not fresh. -/
theorem spawnedAt_some {moment : Moment Stats} {time : ℚ}
    (spawned : spawnedAt moment = some time) :
    moment.before.cache.refreshing = false ∧ moment.before.cache.fresh time = false := by
  rcases moment with ⟨world, event⟩
  cases event with
  | call now starts =>
      simp only [spawnedAt, Option.ite_none_right_eq_some, Option.some.injEq] at spawned
      rcases spawned with ⟨spawned, same⟩
      subst same
      rcases getStorageStats_cases now starts world.cache with ⟨stale, idle, _⟩ | ⟨not, _⟩
      · exact ⟨idle, stale⟩
      · simp [spawned] at not
  | answer | scanned | completed => simp [spawnedAt] at spawned

/-- Once a snapshot is stored, a call returns the last one, or raises where its thread could
not start. -/
theorem leaving_of_data {now : ℚ} {starts : Bool} {cache : Cache Stats} {stats : Stats}
    (data : cache.data = some stats) :
    starts = false ∧ (getStorageStats now starts cache).leaving = .raised ∨
      ∃ extra, (getStorageStats now starts cache).leaving = .snapshot stats extra := by
  rcases getStorageStats_cases now starts cache with
    ⟨_, _, _, _, leaves⟩ | ⟨_, _, raises | leaves⟩
  · right
    exact ⟨_, by rw [leaves, data, leave]⟩
  · exact .inl raises
  · right
    exact ⟨_, by rw [leaves, data, leave]⟩

/-- One worker at a time, marked as such; the last stored snapshot in every later call; and
the time to live between the end of a scan and the start of the next. -/
theorem single_flight {clock : ℚ} {trace : List (Moment Stats)} {world : World Stats}
    (run : Reaches step (World.initial clock) trace world) :
    world.workers.length ≤ 1 ∧
    (world.cache.refreshing = true ↔ world.workers ≠ []) ∧
    world.cache.data = lastStored trace ∧
    (∀ earlier moment later now starts stats, trace = earlier ++ moment :: later →
      moment.event = .call now starts → lastStored earlier = some stats →
      starts = false ∧ (getStorageStats now starts moment.before.cache).leaving = .raised ∨
        ∃ extra, (getStorageStats now starts moment.before.cache).leaving =
          .snapshot stats extra) ∧
    (∀ earlier finished between spawned later ended started,
      trace = earlier ++ finished :: (between ++ spawned :: later) →
      finishedAt finished = some ended → spawnedAt spawned = some started →
      ended + storageCacheTtl ≤ started) := by
  have now_ := settled run
  refine ⟨?_, ?_, now_.data, ?_, ?_⟩
  · rcases now_.workers with ⟨_, worker, one⟩ | ⟨_, none_⟩
    · simp [one]
    · simp [none_]
  · rcases now_.workers with ⟨busy, worker, one⟩ | ⟨idle, none_⟩
    · simp [busy, one]
    · simp [idle, none_]
  · intro earlier moment later now starts stats split call last
    have before := settled (run.upTo split).1
    exact leaving_of_data (before.data.trans last)
  · intro earlier finished between spawned later ended started split ends starts
    have apart : trace = (earlier ++ finished :: between) ++ spawned :: later := by
      simpa using split
    have before := settled (run.upTo apart).1
    have free := spawnedAt_some starts
    have known := (before.finished finished (by simp) ended ends).2 free.1
    have aged := ttl_over known.1 free.2
    linarith

/-- A scan, a thread that would not start, and the next scan. -/
theorem single_flight_refused :
    ∃ (trace : List (Moment Nat)) (world : World Nat),
      Reaches step (World.initial 5) trace world ∧ trace.length = 5 ∧
      lastStored trace = some 7 ∧ world.workers.length ≤ 1 ∧
      (world.cache.refreshing = true ↔ world.workers ≠ []) ∧
      world.cache.data = lastStored trace := by
  have run : ∃ (trace : List (Moment Nat)) (world : World Nat),
      Reaches step (World.initial 5) trace world ∧ trace.length = 5 ∧
      lastStored trace = some 7 :=
    ⟨_, _, .next (.next (.next (.next (.next .start (.call 5 true) rfl)
      (.scanned 0 (.ok 7) 6) rfl) (.completed 0 7) rfl) (.call 70 false) rfl)
      (.call 80 true) rfl, rfl, rfl⟩
  rcases run with ⟨trace, world, run, length, last⟩
  have whole := single_flight run
  exact ⟨trace, world, run, length, last, whole.1, whole.2.1, whole.2.2.1⟩

end Homelab.ControlApi
