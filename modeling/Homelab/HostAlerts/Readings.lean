import Homelab.HostAlerts.Laws
import Mathlib.Algebra.Order.Ring.Rat

/-! # What the two scripts sample

`pid-budget-alert.sh` samples each container by itself, `cpu-load-alert.sh` the host. Both
judge a sample by two thresholds and hand it to the same state machine.
-/

namespace Homelab.HostAlerts

open Text

/-! ## Process ids of a container -/

namespace PidBudget

structure Config where
  warn : Int
  crit : Int
  cooldownHours : Int

/-- `pids.current` and `pids.max` of a container with a limit. -/
structure Sample where
  now : Nat
  current : Nat
  max : Nat
deriving DecidableEq

def Sample.pct (sample : Sample) : Nat := sample.current * 100 / sample.max

def severity (cfg : Config) (sample : Sample) : Severity :=
  if cfg.crit ≤ sample.pct then .crit
  else if cfg.warn ≤ sample.pct then .warn
  else .quiet

def messages (name : String) (sample : Sample) : Messages :=
  let pct := toString sample.pct
  let used := toString sample.current ++ "/" ++ toString sample.max
  { crit := ⟨"PID budget CRIT: " ++ name ++ " " ++ pct ++ "%", "urgent", "rotating_light,gear",
      name ++ " using " ++ used ++ " PIDs (" ++ pct ++
        "%). Restart imminent if this climbs further."⟩
    warn := ⟨"PID budget warn: " ++ name ++ " " ++ pct ++ "%", "high", "warning,gear",
      name ++ " using " ++ used ++ " PIDs (" ++ pct ++ "%). Trending toward limit."⟩
    cleared := fun _ => ⟨"PID budget recovered: " ++ name ++ " " ++ pct ++ "%", "low",
      "white_check_mark,gear",
      name ++ " dropped to " ++ used ++ " PIDs (" ++ pct ++ "%). Alert cleared."⟩ }

def reading (cfg : Config) (name : String) (sample : Sample) : Reading :=
  ⟨sample.now, toString sample.pct, severity cfg sample, messages name sample⟩

theorem reading_legible (cfg : Config) (name : String) : Legible (reading cfg name) :=
  fun _ => (spaceless_toString _).oneLine

theorem high_iff {cfg : Config} {name : String} (sample : Sample)
    (ordered : cfg.warn ≤ cfg.crit) :
    High (reading cfg name) sample ↔ cfg.warn ≤ sample.pct := by
  simp only [High, reading, severity]
  split
  · simp
    omega
  · split <;> simp [*]

theorem critical_iff {cfg : Config} {name : String} (sample : Sample) :
    Critical (reading cfg name) sample ↔ cfg.crit ≤ sample.pct := by
  simp only [Critical, reading, severity]
  split
  · simp [*]
  · split <;> simp [*]

/-- The laws hold of the samples of a container. -/
theorem runs_laws {cfg : Config} {name : String} {turns : List (Turn Sample)}
    {file : Option String} (ordered : cfg.warn ≤ cfg.crit)
    (runs : Runs (reading cfg name) cfg.cooldownHours turns file) :
    Laws Sample.now (fun sample => cfg.warn ≤ sample.pct) (fun sample => cfg.crit ≤ sample.pct)
      cfg.cooldownHours turns :=
  (runs_lawful (reading_legible cfg name) runs).congr
    (fun sample => high_iff sample ordered) critical_iff

end PidBudget

/-! ## The load of the host -/

namespace CpuLoad

/-- The thresholds as they are printed, and the number `awk` reads in a text. -/
structure Config where
  warnThreshold : String
  critThreshold : String
  cores : String
  cooldownHours : Int
  number : String → ℚ

/-- The second word of `/proc/loadavg`, and what `docker stats` said of the top consumers. -/
structure Sample where
  now : Nat
  load5 : String
  top3 : String
  single : OneLine load5

def severity (cfg : Config) (sample : Sample) : Severity :=
  if cfg.number cfg.critThreshold ≤ cfg.number sample.load5 then .crit
  else if cfg.number cfg.warnThreshold ≤ cfg.number sample.load5 then .warn
  else .quiet

def messages (cfg : Config) (sample : Sample) : Messages :=
  let body (threshold advice : String) :=
    "**5-min load:** " ++ sample.load5 ++ " (threshold ≥ " ++ threshold ++
      ")\n\n**Top CPU consumers:**\n```\n" ++ sample.top3 ++ "\n```\n\n" ++ advice
  { crit := ⟨"CPU load CRIT: " ++ sample.load5 ++ " (" ++ cfg.cores ++ " cores)", "urgent",
      "rotating_light,fire", body cfg.critThreshold ("SSH may be unresponsive. Check Beszel; " ++
        "consider docker pause / restart of the top consumer.")⟩
    warn := ⟨"CPU load warn: " ++ sample.load5 ++ " (" ++ cfg.cores ++ " cores)", "high",
      "warning,fire", body cfg.warnThreshold
        "Trending toward saturation. Investigate before SSH lag begins."⟩
    cleared := fun lastSev => ⟨"CPU load recovered: " ++ sample.load5, "low",
      "white_check_mark,fire", "5-min load dropped to " ++ sample.load5 ++ " (was sev=" ++
        lastSev ++ "). Alert cleared."⟩ }

def reading (cfg : Config) (sample : Sample) : Reading :=
  ⟨sample.now, sample.load5, severity cfg sample, messages cfg sample⟩

theorem reading_legible (cfg : Config) : Legible (reading cfg) := Sample.single

theorem high_iff {cfg : Config} (sample : Sample)
    (ordered : cfg.number cfg.warnThreshold ≤ cfg.number cfg.critThreshold) :
    High (reading cfg) sample ↔ cfg.number cfg.warnThreshold ≤ cfg.number sample.load5 := by
  simp only [High, reading, severity]
  split
  · next above => simpa using ordered.trans above
  · split <;> simp [*]

theorem critical_iff {cfg : Config} (sample : Sample) :
    Critical (reading cfg) sample ↔
      cfg.number cfg.critThreshold ≤ cfg.number sample.load5 := by
  simp only [Critical, reading, severity]
  split
  · simp [*]
  · split <;> simp [*]

/-- The laws hold of the samples of the host. -/
theorem runs_laws {cfg : Config} {turns : List (Turn Sample)} {file : Option String}
    (ordered : cfg.number cfg.warnThreshold ≤ cfg.number cfg.critThreshold)
    (runs : Runs (reading cfg) cfg.cooldownHours turns file) :
    Laws Sample.now (fun sample => cfg.number cfg.warnThreshold ≤ cfg.number sample.load5)
      (fun sample => cfg.number cfg.critThreshold ≤ cfg.number sample.load5)
      cfg.cooldownHours turns :=
  (runs_lawful (reading_legible cfg) runs).congr
    (fun sample => high_iff sample ordered) critical_iff

end CpuLoad

/-! ## Both scripts -/

/-- Whatever is sampled, in whatever order the samples go up and down, both scripts notify
by the laws. -/
theorem alerts_lawful :
    (∀ (cfg : PidBudget.Config) name turns file, cfg.warn ≤ cfg.crit →
      Runs (PidBudget.reading cfg name) cfg.cooldownHours turns file →
      Laws PidBudget.Sample.now (fun sample => cfg.warn ≤ sample.pct)
        (fun sample => cfg.crit ≤ sample.pct) cfg.cooldownHours turns) ∧
    (∀ (cfg : CpuLoad.Config) turns file,
      cfg.number cfg.warnThreshold ≤ cfg.number cfg.critThreshold →
      Runs (CpuLoad.reading cfg) cfg.cooldownHours turns file →
      Laws CpuLoad.Sample.now
        (fun sample => cfg.number cfg.warnThreshold ≤ cfg.number sample.load5)
        (fun sample => cfg.number cfg.critThreshold ≤ cfg.number sample.load5)
        cfg.cooldownHours turns) :=
  ⟨fun _ _ _ _ ordered runs => PidBudget.runs_laws ordered runs,
    fun _ _ _ ordered runs => CpuLoad.runs_laws ordered runs⟩

namespace CpuLoad

/-- The numbers of the texts that the climbing load has. -/
def climbingNumber : String → ℚ
  | "6.00" => 6
  | "8.00" => 8
  | "12.00" => 12
  | "13.00" => 13
  | _ => 0

def climbingConfig : Config := ⟨"6.00", "12.00", "4", 24, climbingNumber⟩

def climbingSample (now : Nat) (load5 : String) (single : OneLine load5) : Sample :=
  ⟨now, load5, "", single⟩

end CpuLoad

/-- The laws of a container that climbs, and of a load that climbs and falls. -/
theorem alerts_lawful_climbing :
    (∃ turns : List (Turn PidBudget.Sample),
      turns.map (fun turn => (turn.sample, turn.fired)) =
        [(⟨0, 80, 100⟩, some .warn), (⟨900, 95, 100⟩, some .crit)] ∧
      Laws PidBudget.Sample.now (fun sample => (70 : Int) ≤ sample.pct)
        (fun sample => (90 : Int) ≤ sample.pct) 24 turns) ∧
    ∃ turns : List (Turn CpuLoad.Sample),
      turns.map (fun turn => (turn.sample.load5, turn.fired)) =
        [("8.00", some .warn), ("13.00", some .crit), ("13.00", none), ("0.50", some .quiet)] ∧
      Laws CpuLoad.Sample.now (fun sample => 6 ≤ CpuLoad.climbingNumber sample.load5)
        (fun sample => 12 ≤ CpuLoad.climbingNumber sample.load5) 24 turns := by
  constructor
  · have first : Runs (PidBudget.reading ⟨70, 90, 24⟩ "sonarr") 24 _ _ :=
      Runs.start.next ⟨0, 80, 100⟩ (by simp)
    have runs := first.next ⟨900, 95, 100⟩ (by simp [PidBudget.reading])
    exact ⟨_, by decide +kernel, alerts_lawful.1 ⟨70, 90, 24⟩ "sonarr" _ _ (by decide) runs⟩
  · have ordered : CpuLoad.climbingNumber "6.00" ≤ CpuLoad.climbingNumber "12.00" := by
      decide +kernel
    have first : Runs (CpuLoad.reading CpuLoad.climbingConfig) 24 _ _ :=
      Runs.start.next (CpuLoad.climbingSample 0 "8.00" (by decide)) (by simp)
    have second := first.next (CpuLoad.climbingSample 900 "13.00" (by decide))
      (by simp [CpuLoad.reading, CpuLoad.climbingSample])
    have third := second.next (CpuLoad.climbingSample 1800 "13.00" (by decide))
      (by simp [CpuLoad.reading, CpuLoad.climbingSample])
    have runs := third.next (CpuLoad.climbingSample 2700 "0.50" (by decide))
      (by simp [CpuLoad.reading, CpuLoad.climbingSample])
    exact ⟨_, by decide +kernel, alerts_lawful.2 CpuLoad.climbingConfig _ _ ordered runs⟩

end Homelab.HostAlerts
