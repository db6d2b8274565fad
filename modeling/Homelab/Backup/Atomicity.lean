import Homelab.Backup.CleanUp
import Homelab.Backup.Container

/-! # Atomicity of the recipes

When a run of a recipe tells the truth about its archive and leaves the container running.
-/

namespace Homelab.Backup

open Effects Effects.Trap Text

variable {Content : Type}

/-! ## Every recipe -/

theorem verdict [DecidableEq Content] (recipe : Recipe) (initial : Files Content) :
    EndsIn (fun account files => Atomic initial account files ↔ recipe.Steady account)
      recipe.script [] initial := by
  have calm : Calm initial .opened initial := ⟨rfl, rfl, rfl, rfl, rfl, rfl⟩
  cases recipe with
  | stopTar service => exact stopTar_verdict service ⟨calm, rfl, rfl, rfl⟩
  | sqlite service dbPath => exact sqlite_verdict service dbPath ⟨⟨calm, rfl⟩, rfl⟩
  | tar service => exact tar_verdict service ⟨calm, rfl⟩
  | pgDump service container dbName => exact pgDump_verdict service container dbName ⟨calm, rfl⟩

/-- A run of a recipe, with whatever exit statuses and signals, is atomic exactly when its `mv`
renames or a signal kills it first, its database copy was there to be checked, and its
`docker stop` was not disturbed. -/
theorem atomic_iff_steady [DecidableEq Content] {recipe : Recipe} {initial final : Files Content}
    {moments : List (Moment (calls shell) (Files Content))}
    (run : Executes (dayDirectory Content) recipe.script initial moments final (some ())) :
    Atomic initial (accountOf moments.reverse) final ↔
      recipe.Steady (accountOf moments.reverse) := by
  have ends := (verdict recipe initial).result run
  rwa [List.append_nil] at ends

/-! ## A signal during the `tar` -/

/-- An archive of the day, and the next one beside it. -/
def earlierArchive : Files Nat
  | .archive => some 0
  | _ => none

def nextBuilt : Files Nat
  | .archive => some 0
  | .building => some 1
  | .copy => none

theorem nextBuilt_built :
    Leaves earlierArchive (.run (.build .building)) (⟨0, 1⟩ : Reply Nat) nextBuilt := by
  refine ⟨fun slot other => ?_, fun _ => by simp [nextBuilt]⟩
  cases slot with
  | building => exact absurd rfl other
  | copy | archive => rfl

theorem nextBuilt_tidied : Tidied [.building] nextBuilt earlierArchive := by
  intro slot
  cases slot with
  | building => exact .inr ⟨by simp, rfl⟩
  | copy | archive => exact .inl rfl

/-- One operation of a run that is spelled out. -/
theorem runs (operation : Operation shell)
    {next : (calls shell).Answer operation → Script shell}
    {files final : Files Content} {moments : List (Moment (calls shell) (Files Content))}
    (answer : (calls shell).Answer operation) (after : Files Content)
    (step : Leaves files operation answer after)
    (rest : Executes (dayDirectory Content) (next answer) after moments final (some ())) :
    Executes (dayDirectory Content) (.call operation next) files
      (⟨files, operation, answer, after⟩ :: moments) final (some ()) :=
  .call step rest

/-- TERM comes while the `tar` of `backup-stop_tar.sh` runs. The handler removes what was
built, there is nothing to rename, and status ok is printed. -/
theorem interrupted_run :
    ∃ moments, Executes (dayDirectory Nat) (Recipe.stopTar []).script earlierArchive moments
        earlierArchive (some ()) ∧
      (accountOf moments.reverse).said = true ∧ (accountOf moments.reverse).complete = false := by
  exact ⟨_,
    runs (.run .makeDirectory) (⟨(), 0⟩ : Reply Unit) earlierArchive rfl <|
    runs (.run .inspect) (⟨true, 0⟩ : Reply Bool) earlierArchive rfl <|
    runs (.run .milliseconds) (⟨0, 0⟩ : Reply Int) earlierArchive rfl <|
    runs (.run .stop) (⟨true, 0⟩ : Reply Bool) earlierArchive rfl <|
    runs (.run (.build .building)) (⟨0, 1⟩ : Reply Nat) nextBuilt nextBuilt_built <|
    runs (.act .start) () nextBuilt rfl <|
    runs (.act (.tidy [.building])) () earlierArchive nextBuilt_tidied <|
    runs (.run .milliseconds) (⟨9, 0⟩ : Reply Int) earlierArchive rfl <|
    runs (.run (.entries 0)) (⟨0, 0⟩ : Reply Int) earlierArchive
      ⟨rfl, by decide, fun _ => rfl⟩ <|
    runs (.run .rename) (⟨false, 0⟩ : Reply Bool) earlierArchive rfl <|
    runs (.run .size) (⟨7, 0⟩ : Reply Int) earlierArchive rfl <|
    runs (.run (.remove [])) (⟨(), 0⟩ : Reply Unit) earlierArchive (fun _ => .inl rfl) <|
    runs (.run (.print _)) (⟨(), 0⟩ : Reply Unit) earlierArchive rfl <|
    runs (.act .start) () earlierArchive rfl <|
    runs (.act (.tidy [.building])) () earlierArchive (fun _ => .inl rfl) <|
    .done () earlierArchive, rfl, rfl⟩

/-- The run of the recipe that a signal has turned is not atomic. -/
theorem archive_told_missing :
    ¬ ∀ (recipe : Recipe) (initial final : Files Nat)
        (moments : List (Moment (calls shell) (Files Nat))),
      Executes (dayDirectory Nat) recipe.script initial moments final (some ()) →
        Atomic initial (accountOf moments.reverse) final := by
  intro claim
  rcases interrupted_run with ⟨moments, run, said, incomplete⟩
  have told := (claim _ _ _ _ run).told said
  simp [incomplete] at told

theorem atomic_iff_steady_interrupted :
    ∃ moments : List (Moment (calls shell) (Files Nat)),
      Executes (dayDirectory Nat) (Recipe.stopTar []).script earlierArchive moments
        earlierArchive (some ()) ∧
      ¬ Atomic earlierArchive (accountOf moments.reverse) earlierArchive ∧
      (Atomic earlierArchive (accountOf moments.reverse) earlierArchive ↔
        (Recipe.stopTar []).Steady (accountOf moments.reverse)) := by
  rcases interrupted_run with ⟨moments, run, said, incomplete⟩
  refine ⟨moments, run, fun atomic => ?_, atomic_iff_steady run⟩
  have told := atomic.told said
  simp [incomplete] at told

end Homelab.Backup
