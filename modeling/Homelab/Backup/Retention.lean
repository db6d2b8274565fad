import Mathlib.Data.List.Induction
import Mathlib.Tactic.Common

/-! # Retention of the backups

Every recipe leaves its archive in `BACKUP_ROOT/<service>/<date>/`, and each orchestrator run
ends with a prune of the day directories by age. A service is named by one path component,
and removals succeed. Times are whole seconds.
-/

namespace Homelab.Backup.Retention

/-! ## Day directories -/

/-- `modified` follows the changes of the names in the directory; `archived` tells whether
there is a complete archive under its final name. -/
structure Directory where
  modified : Int
  archived : Bool
deriving DecidableEq

abbrev Store := String → Int → Option Directory

namespace Store

def empty : Store := fun _ _ => none

def Archived (store : Store) (service : String) (day : Int) : Prop :=
  ∃ directory, store service day = some directory ∧ directory.archived = true

def Keeps (store : Store) (service : String) : Prop := ∃ day, store.Archived service day

end Store

/-! ## Recipes -/

/-- What a recipe does to its day directory. -/
inductive Outcome
  /-- The recipe is missing, or its directory cannot be made. -/
  | untouched
  /-- The directory is made where there is none, and a partial archive may come and go. -/
  | failed (made : Int) (changed : Option Int)
  /-- A complete archive is renamed onto the final name. -/
  | complete (renamed : Int)

def Outcome.leave (directory : Option Directory) : Outcome → Option Directory
  | .untouched => directory
  | .failed made changed =>
      let directory := directory.getD ⟨made, false⟩
      some { directory with modified := changed.getD directory.modified }
  | .complete renamed => some ⟨renamed, true⟩

def daySeconds : Int := 86400

structure Recipe where
  service : String
  started : Int
  outcome : Outcome

/-- `DATE`, counted in days of UTC. -/
def Recipe.day (recipe : Recipe) : Int := recipe.started / daySeconds

def Store.record (recipe : Recipe) (store : Store) : Store := fun service day =>
  if service = recipe.service ∧ day = recipe.day then
    recipe.outcome.leave (store service day)
  else store service day

/-! ## Prune -/

/-- `-mtime +N`: a fraction of a day is ignored. -/
def Directory.Old (retentionDays : Nat) (now : Int) (directory : Directory) : Prop :=
  retentionDays < (now - directory.modified) / daySeconds

instance (retentionDays : Nat) (now : Int) (directory : Directory) :
    Decidable (directory.Old retentionDays now) :=
  inferInstanceAs (Decidable (_ < _))

def Store.prune (retentionDays : Nat) (now : Int) (store : Store) : Store :=
  fun service day =>
    (store service day).filter fun directory => ¬ directory.Old retentionDays now

/-! ## Runs -/

inductive Event
  | recipe (recipe : Recipe)
  | prune (now : Int)

def step (retentionDays : Nat) (store : Store) : Event → Store
  | .recipe recipe => store.record recipe
  | .prune now => store.prune retentionDays now

def after (retentionDays : Nat) (events : List Event) : Store :=
  events.foldl (step retentionDays) .empty

/-- A run of the orchestrator: when the recipe at each place of the service list started, what
it did, and when the prune looked at the directories. -/
structure Run where
  started : Nat → Int
  outcome : Nat → Outcome
  pruned : Int

def Run.recipe (run : Run) (service : String) (place : Nat) : Recipe where
  service := service
  started := run.started place
  outcome := run.outcome place

def Run.events (services : List String) (run : Run) : List Event :=
  (services.zipIdx.map fun (service, place) => .recipe (run.recipe service place)) ++
    [.prune run.pruned]

def afterRuns (retentionDays : Nat) (services : List String) (runs : List Run) : Store :=
  after retentionDays (runs.flatMap (Run.events services))

def Produced (services : List String) (runs : List Run) (service : String) : Prop :=
  ∃ run ∈ runs, ∃ place renamed,
    services[place]? = some service ∧ run.outcome place = .complete renamed

/-! ## One event at a time -/

@[simp] theorem after_nil (retentionDays : Nat) : after retentionDays [] = .empty := rfl

@[simp] theorem after_append_recipe (retentionDays : Nat) (events : List Event)
    (recipe : Recipe) :
    after retentionDays (events ++ [.recipe recipe]) =
      (after retentionDays events).record recipe := by
  simp [after, step]

@[simp] theorem after_append_prune (retentionDays : Nat) (events : List Event) (now : Int) :
    after retentionDays (events ++ [.prune now]) =
      (after retentionDays events).prune retentionDays now := by
  simp [after, step]

/-- A recipe adds a snapshot or leaves those there are. -/
theorem archived_record {store : Store} {recipe : Recipe} {service : String} {day : Int} :
    (store.record recipe).Archived service day ↔
      store.Archived service day ∨
        (recipe.service = service ∧ recipe.day = day ∧
          ∃ renamed, recipe.outcome = .complete renamed) := by
  by_cases own : service = recipe.service ∧ day = recipe.day
  · rcases own with ⟨rfl, rfl⟩
    cases ends : recipe.outcome with
    | untouched => simp [Store.Archived, Store.record, ends, Outcome.leave]
    | failed made changed =>
        cases found : store recipe.service recipe.day with
        | none => simp [Store.Archived, Store.record, ends, Outcome.leave, found]
        | some directory => simp [Store.Archived, Store.record, ends, Outcome.leave, found]
    | complete renamed => simp [Store.Archived, Store.record, ends, Outcome.leave]
  · have other : ¬ (recipe.service = service ∧ recipe.day = day) := by
      intro same
      exact own ⟨same.1.symm, same.2.symm⟩
    simp only [Store.Archived, Store.record, if_neg own]
    constructor
    · exact .inl
    · intro either
      rcases either with old | ⟨service_, day_, _⟩
      · exact old
      · exact absurd ⟨service_, day_⟩ other

/-- A prune leaves the snapshots whose directories are not old. -/
theorem archived_prune {store : Store} {retentionDays : Nat} {now : Int} {service : String}
    {day : Int} :
    (store.prune retentionDays now).Archived service day ↔
      store.Archived service day ∧
        ∀ directory, store service day = some directory →
          ¬ directory.Old retentionDays now := by
  cases found : store service day with
  | none => simp [Store.Archived, Store.prune, found]
  | some directory =>
      simp only [Store.Archived, Store.prune, found, Option.filter_some]
      by_cases old : directory.Old retentionDays now
      · simp [old]
      · simp [old]

/-! ## What survives -/

/-- No prune among the later events found the directory of this day old. -/
def Spared (retentionDays : Nat) (service : String) (day : Int) (earlier later : List Event) :
    Prop :=
  ∀ between now rest, later = between ++ .prune now :: rest →
    ∀ directory, after retentionDays (earlier ++ between) service day = some directory →
      ¬ directory.Old retentionDays now

section Spared

variable {retentionDays : Nat} {service : String} {day : Int} {earlier later : List Event}

theorem spared_nil : Spared retentionDays service day earlier [] := by
  intro between now rest split
  simp at split

/-- A prune inside a longer list is the last event or comes before it. -/
theorem split_append {event : Event} {between rest : List Event} {now : Int}
    (split : later ++ [event] = between ++ .prune now :: rest) :
    (rest = [] ∧ later = between ∧ event = .prune now) ∨
      ∃ front, rest = front ++ [event] ∧ later = between ++ .prune now :: front := by
  rcases List.eq_nil_or_concat rest with none_ | ⟨front, last, some_⟩
  · left
    subst none_
    have same := List.append_inj' split rfl
    exact ⟨rfl, same.1, by simpa using same.2⟩
  · right
    subst some_
    have same : later ++ [event] = (between ++ .prune now :: front) ++ [last] := by
      simpa using split
    have parts := List.append_inj' same rfl
    have last_ : event = last := by simpa using parts.2
    exact ⟨front, by simp [last_], parts.1⟩

theorem spared_append_recipe {recipe : Recipe} :
    Spared retentionDays service day earlier (later ++ [.recipe recipe]) ↔
      Spared retentionDays service day earlier later := by
  constructor
  · intro spared between now rest split
    exact spared between now (rest ++ [.recipe recipe]) (by simp [split])
  · intro spared between now rest split
    rcases split_append split with ⟨_, _, impossible⟩ | ⟨front, _, before⟩
    · cases impossible
    · exact spared between now front before

theorem spared_append_prune {now : Int} :
    Spared retentionDays service day earlier (later ++ [.prune now]) ↔
      Spared retentionDays service day earlier later ∧
        ∀ directory, after retentionDays (earlier ++ later) service day = some directory →
          ¬ directory.Old retentionDays now := by
  constructor
  · intro spared
    constructor
    · intro between time rest split
      exact spared between time (rest ++ [.prune now]) (by simp [split])
    · exact spared later now [] rfl
  · intro spared between time rest split
    rcases split_append split with ⟨_, same, last⟩ | ⟨front, _, before⟩
    · cases last
      subst same
      exact spared.2
    · exact spared.1 between time front before

end Spared

/-- A snapshot of the day was completed, and no prune has found its directory old since. -/
def Survives (retentionDays : Nat) (events : List Event) (service : String) (day : Int) :
    Prop :=
  ∃ earlier recipe renamed later, events = (earlier ++ [.recipe recipe]) ++ later ∧
    recipe.service = service ∧ recipe.day = day ∧ recipe.outcome = .complete renamed ∧
    Spared retentionDays service day (earlier ++ [.recipe recipe]) later

theorem survives_append_recipe {retentionDays : Nat} {events : List Event} {recipe : Recipe}
    {service : String} {day : Int} :
    Survives retentionDays (events ++ [.recipe recipe]) service day ↔
      Survives retentionDays events service day ∨
        (recipe.service = service ∧ recipe.day = day ∧
          ∃ renamed, recipe.outcome = .complete renamed) := by
  constructor
  · rintro ⟨earlier, success, renamed, later, split, service_, day_, ends, spared⟩
    rcases List.eq_nil_or_concat later with none_ | ⟨front, last, some_⟩
    · right
      subst none_
      have parts := List.append_inj' (split.trans (List.append_nil _)) rfl
      have same : recipe = success := by simpa using parts.2
      subst same
      exact ⟨service_, day_, renamed, ends⟩
    · left
      subst some_
      rw [List.concat_eq_append, ← List.append_assoc] at split
      have parts := List.append_inj' split rfl
      have same : last = .recipe recipe := by simpa using parts.2.symm
      subst same
      rw [List.concat_eq_append, spared_append_recipe] at spared
      exact ⟨earlier, success, renamed, front, parts.1, service_, day_, ends, spared⟩
  · rintro (⟨earlier, success, renamed, later, split, service_, day_, ends, spared⟩ |
      ⟨service_, day_, renamed, ends⟩)
    · exact ⟨earlier, success, renamed, later ++ [.recipe recipe], by simp [split], service_,
        day_, ends, spared_append_recipe.mpr spared⟩
    · exact ⟨events, recipe, renamed, [], by simp, service_, day_, ends, spared_nil⟩

theorem survives_append_prune {retentionDays : Nat} {events : List Event} {now : Int}
    {service : String} {day : Int} :
    Survives retentionDays (events ++ [.prune now]) service day ↔
      Survives retentionDays events service day ∧
        ∀ directory, after retentionDays events service day = some directory →
          ¬ directory.Old retentionDays now := by
  constructor
  · rintro ⟨earlier, success, renamed, later, split, service_, day_, ends, spared⟩
    rcases List.eq_nil_or_concat later with none_ | ⟨front, last, some_⟩
    · subst none_
      have parts := List.append_inj' (split.trans (List.append_nil _)) rfl
      simp at parts
    · subst some_
      rw [List.concat_eq_append, ← List.append_assoc] at split
      have parts := List.append_inj' split rfl
      have same : last = .prune now := by simpa using parts.2.symm
      subst same
      rw [List.concat_eq_append, spared_append_prune] at spared
      rw [parts.1]
      exact ⟨⟨earlier, success, renamed, front, rfl, service_, day_, ends, spared.1⟩,
        spared.2⟩
  · rintro ⟨⟨earlier, success, renamed, later, split, service_, day_, ends, spared⟩, young⟩
    refine ⟨earlier, success, renamed, later ++ [.prune now], by simp [split], service_, day_,
      ends, spared_append_prune.mpr ⟨spared, ?_⟩⟩
    rwa [← split]

/-- The snapshots there are, are those that survive. -/
theorem archived_iff_survives (retentionDays : Nat) (events : List Event) (service : String)
    (day : Int) :
    (after retentionDays events).Archived service day ↔
      Survives retentionDays events service day := by
  induction events using List.reverseRecOn with
  | nil =>
      constructor
      · rintro ⟨directory, found, _⟩
        simp [Store.empty] at found
      · rintro ⟨earlier, success, renamed, later, split, _⟩
        simp at split
  | append_singleton events event induction =>
      cases event with
      | recipe recipe =>
          rw [after_append_recipe, archived_record, survives_append_recipe, induction]
      | prune now =>
          rw [after_append_prune, archived_prune, survives_append_prune, induction]

/-! ## Ages -/

def Event.times : Event → List Int
  | .recipe ran =>
      ran.started :: match ran.outcome with
        | .untouched => []
        | .failed made changed => made :: changed.toList
        | .complete renamed => [renamed]
  | .prune now => [now]

def Forward (events : List Event) : Prop :=
  (events.flatMap Event.times).Pairwise (· ≤ ·)

/-- A directory is never older than the last snapshot that was renamed in it. -/
theorem renamed_le_modified {retentionDays : Nat} {earlier later : List Event}
    {recipe : Recipe} {renamed : Int} (ends : recipe.outcome = .complete renamed)
    (since : ∀ time ∈ later.flatMap Event.times, renamed ≤ time) {directory : Directory}
    (found : after retentionDays ((earlier ++ [.recipe recipe]) ++ later) recipe.service
      recipe.day = some directory) : renamed ≤ directory.modified := by
  induction later using List.reverseRecOn generalizing directory with
  | nil =>
      have same : (⟨renamed, true⟩ : Directory) = directory := by
        simpa [Store.record, ends, Outcome.leave] using found
      simp [← same]
  | append_singleton later event induction =>
      have before : ∀ {directory : Directory},
          after retentionDays ((earlier ++ [.recipe recipe]) ++ later) recipe.service
            recipe.day = some directory → renamed ≤ directory.modified :=
        induction fun time member => since time (by simp [member])
      rw [← List.append_assoc] at found
      cases event with
      | recipe other =>
          rw [after_append_recipe, Store.record] at found
          split at found
          · cases outcome : other.outcome with
            | untouched => exact before (by simpa [outcome, Outcome.leave] using found)
            | complete again =>
                have same : (⟨again, true⟩ : Directory) = directory := by
                  simpa [outcome, Outcome.leave] using found
                have later_ := since again (by simp [Event.times, outcome])
                simpa [← same] using later_
            | failed made changed =>
                have made_ := since made (by simp [Event.times, outcome])
                simp only [outcome, Outcome.leave, Option.some.injEq] at found
                rw [← found]
                cases changed with
                | some changed => exact since changed (by simp [Event.times, outcome])
                | none =>
                    cases old : after retentionDays ((earlier ++ [.recipe recipe]) ++ later)
                        recipe.service recipe.day with
                    | none => simpa using made_
                    | some directory => simpa using before old
          · exact before found
      | prune now =>
          rw [after_append_prune, Store.prune, Option.filter_eq_some_iff] at found
          exact before found.1

/-- A snapshot that was renamed less than the retention ago survives. -/
theorem survives_of_recent {retentionDays : Nat} {earlier later : List Event} {recipe : Recipe}
    {renamed : Int} (forward : Forward ((earlier ++ [.recipe recipe]) ++ later))
    (ends : recipe.outcome = .complete renamed)
    (recent : ∀ now, .prune now ∈ later → (now - renamed) / daySeconds ≤ retentionDays) :
    Survives retentionDays ((earlier ++ [.recipe recipe]) ++ later) recipe.service
      recipe.day := by
  refine ⟨earlier, recipe, renamed, later, rfl, rfl, rfl, ends, ?_⟩
  intro between now rest split directory found old
  have since : ∀ time ∈ between.flatMap Event.times, renamed ≤ time := by
    intro time member
    rw [Forward, List.flatMap_append, List.pairwise_append] at forward
    refine forward.2.2 renamed ?_ time ?_
    · rw [List.flatMap_append]
      apply List.mem_append_right
      simp [Event.times, ends]
    · rw [split, List.flatMap_append]
      exact List.mem_append_left _ member
  have young := renamed_le_modified ends since found
  have short := recent now (by simp [split])
  simp only [Directory.Old, daySeconds] at old short
  omega

/-! ## Orchestrator runs -/

/-- The events of a service's recipe lie inside its run. -/
theorem events_split {services : List String} {run : Run} {place : Nat} {service : String}
    (found : services[place]? = some service) :
    ∃ front back, run.events services = front ++ .recipe (run.recipe service place) :: back ∧
      ∀ now, .prune now ∈ back → now = run.pruned := by
  have member : (service, place) ∈ services.zipIdx := by
    simpa [List.mem_zipIdx_iff_getElem?] using found
  rcases List.append_of_mem member with ⟨front, back, split⟩
  refine ⟨_, _, by rw [Run.events, split, List.map_append, List.map_cons, List.append_assoc,
    List.cons_append], ?_⟩
  intro now pruned
  simpa using pruned

theorem prune_mem_events {services : List String} {run : Run} {now : Int}
    (member : .prune now ∈ run.events services) : now = run.pruned := by
  simpa [Run.events] using member

/-- A service keeps the snapshots whose directories no later prune found old; and while no more
than the retention has passed since one of them was renamed, it keeps one. -/
theorem kept_within_retention {retentionDays : Nat} {services : List String} {runs : List Run}
    {service : String} (forward : Forward (runs.flatMap (Run.events services))) :
    ((afterRuns retentionDays services runs).Keeps service ↔
      ∃ day, Survives retentionDays (runs.flatMap (Run.events services)) service day) ∧
    ∀ earlier run later place renamed, runs = earlier ++ run :: later →
      services[place]? = some service → run.outcome place = .complete renamed →
      (∀ other ∈ run :: later, (other.pruned - renamed) / daySeconds ≤ retentionDays) →
      (afterRuns retentionDays services runs).Keeps service := by
  constructor
  · exact exists_congr fun day => archived_iff_survives _ _ _ _
  · intro earlier run later place renamed split found ends recent
    rcases @events_split _ run _ _ found with ⟨front, back, inside, prunes⟩
    have whole : runs.flatMap (Run.events services) =
        ((earlier.flatMap (Run.events services) ++ front) ++
          [.recipe (run.recipe service place)]) ++
            (back ++ later.flatMap (Run.events services)) := by
      simp [split, inside]
    rw [whole] at forward
    have survives := @survives_of_recent retentionDays _ _ _ _ forward ends (by
      intro now member
      rcases List.mem_append.mp member with own | other
      · rw [prunes now own]
        exact recent run (by simp)
      · rcases List.mem_flatMap.mp other with ⟨other, among, pruned⟩
        rw [prune_mem_events pruned]
        exact recent other (by simp [among]))
    rw [← whole] at survives
    exact ⟨_, (archived_iff_survives _ _ _ _).mpr survives⟩

/-! ## A service that fails for weeks -/

/-- Both services succeed in week 0, and from then on only the second. -/
def week (number : Nat) : Run where
  started place := number * 604800 + 10800 + 10 * place
  outcome place :=
    if number = 0 ∨ place = 1 then .complete (number * 604800 + 10805 + 10 * place)
    else .failed (number * 604800 + 10801 + 10 * place) none
  pruned := number * 604800 + 10860

def failingWeeks : List Run := (List.range 6).map week

theorem failingWeeks_forward :
    Forward (failingWeeks.flatMap (Run.events ["sonarr", "radarr"])) := by
  unfold Forward
  decide

/-- After five weeks without a snapshot the prune takes the last one. -/
theorem snapshots_age_out :
    Forward (failingWeeks.flatMap (Run.events ["sonarr", "radarr"])) ∧
      Produced ["sonarr", "radarr"] failingWeeks "sonarr" ∧
      ¬ (afterRuns 28 ["sonarr", "radarr"] failingWeeks).Keeps "sonarr" := by
  refine ⟨failingWeeks_forward, ?_, ?_⟩
  · exact ⟨week 0, List.mem_map.mpr ⟨0, by simp, rfl⟩, 0, 10805, rfl, rfl⟩
  · rintro ⟨day, archived⟩
    obtain ⟨earlier, recipe, renamed, later, split, service, day_, ends, _⟩ :=
      (archived_iff_survives _ _ _ _).mp archived
    have member : .recipe recipe ∈ failingWeeks.flatMap (Run.events ["sonarr", "radarr"]) := by
      simp [split]
    have first : recipe.day = 0 := by
      rcases List.mem_flatMap.mp member with ⟨run, among, own⟩
      rcases List.mem_map.mp among with ⟨number, _, same⟩
      have place : recipe = run.recipe "sonarr" 0 ∨ recipe = run.recipe "radarr" 1 := by
        simpa [Run.events] using own
      rcases place with sonarr | radarr
      · have never : (week number).outcome 0 = .complete renamed := by
          rw [same, ← ends, sonarr]
          rfl
        have zero : number = 0 := by
          by_contra later
          simp [week, later] at never
        subst zero same
        rw [sonarr]
        rfl
      · simp [radarr, Run.recipe] at service
    have gone : afterRuns 28 ["sonarr", "radarr"] failingWeeks "sonarr" 0 = none := by decide
    rcases archived with ⟨directory, found, _⟩
    rw [← day_, first, gone] at found
    cases found

/-- Within the four weeks it is kept. -/
theorem kept_within_retention_month :
    (afterRuns 28 ["sonarr", "radarr"] (failingWeeks.take 5)).Keeps "sonarr" :=
  (kept_within_retention (by unfold Forward; decide)).2 [] (week 0)
    [week 1, week 2, week 3, week 4] 0 10805 rfl rfl rfl (by decide)

end Homelab.Backup.Retention
