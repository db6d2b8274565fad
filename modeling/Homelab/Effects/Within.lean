import Homelab.Effects.Attempt

/-! # Programs that keep to some operations

What each allowed operation preserves, a program that asks for nothing else
preserves, whatever else it does.
-/

namespace Homelab.Effects

variable {interface : Interface} {World Error α β : Type}

/-- The program asks only for operations that are `allowed`, and every result it
may end in satisfies `ends`. -/
def Program.Within (allowed : interface.Operation → Prop) (ends : α → Prop) :
    Program interface α → Prop
  | .done result => ends result
  | .call operation next => allowed operation ∧
      ∀ answer, Program.Within allowed ends (next answer)

theorem Program.Within.bind {allowed : interface.Operation → Prop}
    {middle : α → Prop} {ends : β → Prop} {program : Program interface α}
    {next : α → Program interface β} (first : program.Within allowed middle)
    (second : ∀ result, middle result → (next result).Within allowed ends) :
    (program >>= next).Within allowed ends := by
  induction program with
  | done result => exact second result first
  | call operation rest induction =>
      exact ⟨first.1, fun answer => induction answer (first.2 answer)⟩

theorem Program.Within.mono {allowed more : interface.Operation → Prop}
    {ends weaker : α → Prop} {program : Program interface α}
    (within : program.Within allowed ends)
    (wider : ∀ operation, allowed operation → more operation)
    (weaken : ∀ result, ends result → weaker result) :
    program.Within more weaker := by
  induction program with
  | done result => exact weaken result within
  | call operation rest induction =>
      exact ⟨wider _ within.1, fun answer => induction answer (within.2 answer)⟩

/-- Every program keeps to all operations. -/
theorem Program.within_any (program : Program interface α) :
    program.Within (fun _ => True) fun _ => True := by
  induction program with
  | done result => trivial
  | call operation rest induction => exact ⟨trivial, induction⟩

/-- Each allowed operation is good where `inv` holds, and keeps it. -/
def Keeps (system : System interface World)
    (allowed : interface.Operation → Prop)
    (good : Past interface World → Moment interface World → Prop)
    (inv : Past interface World → World → Prop) : Prop :=
  ∀ past world operation answer after, allowed operation →
    system.Step world operation answer after → inv past world →
    good past ⟨world, operation, answer, after⟩ ∧
      inv (⟨world, operation, answer, after⟩ :: past) after

theorem Keeps.mono {system : System interface World}
    {allowed fewer : interface.Operation → Prop}
    {good : Past interface World → Moment interface World → Prop}
    {inv : Past interface World → World → Prop} (keeps : Keeps system allowed good inv)
    (each : ∀ operation, fewer operation → allowed operation) :
    Keeps system fewer good inv :=
  fun past world operation answer after permitted =>
    keeps past world operation answer after (each operation permitted)

/-- What has happened stays in the past. -/
theorem Keeps.remember {system : System interface World}
    {allowed : interface.Operation → Prop}
    {good : Past interface World → Moment interface World → Prop}
    {inv : Past interface World → World → Prop} {moment : Moment interface World}
    (keeps : Keeps system allowed good inv) :
    Keeps system allowed good (fun past world => inv past world ∧ moment ∈ past) := by
  intro past world operation answer after permitted step holds
  have ⟨now, next⟩ := keeps past world operation answer after permitted step holds.1
  exact ⟨now, next, List.mem_cons_of_mem _ holds.2⟩

theorem Guarded.of_within {system : System interface World}
    {allowed : interface.Operation → Prop} {ends : α → Prop}
    {good : Past interface World → Moment interface World → Prop}
    {inv : Past interface World → World → Prop} {program : Program interface α}
    {past : Past interface World} {world : World}
    (keeps : Keeps system allowed good inv) (within : program.Within allowed ends)
    (start : inv past world) :
    Guarded system good (fun past world result => inv past world ∧ ends result)
      program past world := by
  induction program generalizing past world with
  | done result => exact ⟨start, within⟩
  | call operation rest induction =>
      intro answer after step
      have ⟨now, later⟩ := keeps past world operation answer after within.1 step start
      exact ⟨now, induction answer (within.2 answer) later⟩

namespace Attempt

/-- `Program.Within` for attempts, which may fail. -/
def Within (allowed : interface.Operation → Prop)
    (attempt : Attempt interface Error α) : Prop :=
  Program.Within allowed (fun _ => True) attempt.run

/-- The attempt keeps to the allowed operations and never fails. -/
def Steady (allowed : interface.Operation → Prop)
    (attempt : Attempt interface Error α) : Prop :=
  Program.Within allowed (fun outcome => ∃ result, outcome = .ok result) attempt.run

variable {allowed : interface.Operation → Prop}

theorem within_pure (result : α) :
    Within allowed (pure result : Attempt interface Error α) := trivial

theorem within_throw (error : Error) :
    Within allowed (throw error : Attempt interface Error α) := trivial

theorem Within.bind {attempt : Attempt interface Error α}
    {rest : α → Attempt interface Error β} (first : Within allowed attempt)
    (second : ∀ result, Within allowed (rest result)) :
    Within allowed (attempt >>= rest) := by
  rw [Within, ExceptT.run_bind]
  refine Program.Within.bind first fun result _ => ?_
  cases result with
  | ok result => exact second result
  | error error => trivial

theorem steady_pure (result : α) :
    Steady allowed (pure result : Attempt interface Error α) := ⟨result, rfl⟩

theorem steady_lift {program : Program interface α}
    (within : program.Within allowed fun _ => True) :
    Steady allowed (ExceptT.lift program : Attempt interface Error α) := by
  rw [Steady, ExceptT.run_lift, ← bind_pure_comp]
  exact within.bind fun result _ => ⟨result, rfl⟩

theorem Steady.bind {attempt : Attempt interface Error α}
    {rest : α → Attempt interface Error β} (first : Steady allowed attempt)
    (second : ∀ result, Steady allowed (rest result)) :
    Steady allowed (attempt >>= rest) := by
  rw [Steady, ExceptT.run_bind]
  refine Program.Within.bind first fun outcome ok => ?_
  rcases ok with ⟨result, rfl⟩
  exact second result

theorem Steady.mono {more : interface.Operation → Prop}
    {attempt : Attempt interface Error α} (steady : Steady allowed attempt)
    (wider : ∀ operation, allowed operation → more operation) :
    Steady more attempt :=
  Program.Within.mono steady wider fun _ ends => ends

theorem Within.mono {more : interface.Operation → Prop}
    {attempt : Attempt interface Error α} (within : Within allowed attempt)
    (wider : ∀ operation, allowed operation → more operation) :
    Within more attempt :=
  Program.Within.mono within wider fun _ ends => ends

theorem Steady.within {attempt : Attempt interface Error α}
    (steady : Steady allowed attempt) : Within allowed attempt :=
  Program.Within.mono steady (fun _ holds => holds) fun _ _ => trivial

theorem Within.outcome {attempt : Attempt interface Error α}
    (within : Within allowed attempt) : Within allowed (outcome attempt) :=
  (steady_lift within).within

/-- The attempt keeps to the allowed operations, and what it returns, if it
returns anything, is as `ends` says. -/
def Leads (allowed : interface.Operation → Prop) (ends : α → Prop)
    (attempt : Attempt interface Error α) : Prop :=
  Program.Within allowed
    (fun outcome => ∀ result, outcome = .ok result → ends result) attempt.run

theorem leads_pure {ends : α → Prop} {result : α} (holds : ends result) :
    Leads allowed ends (pure result : Attempt interface Error α) := by
  intro other same
  cases same
  exact holds

theorem Leads.bind {middle : α → Prop} {ends : β → Prop}
    {attempt : Attempt interface Error α} {rest : α → Attempt interface Error β}
    (first : Leads allowed middle attempt)
    (second : ∀ result, middle result → Leads allowed ends (rest result)) :
    Leads allowed ends (attempt >>= rest) := by
  rw [Leads, ExceptT.run_bind]
  refine Program.Within.bind first fun outcome holds => ?_
  cases outcome with
  | ok result => exact second result (holds result rfl)
  | error error =>
      intro other same
      cases same

theorem Leads.mono {more : interface.Operation → Prop} {ends weaker : α → Prop}
    {attempt : Attempt interface Error α} (leads : Leads allowed ends attempt)
    (wider : ∀ operation, allowed operation → more operation)
    (weaken : ∀ result, ends result → weaker result) : Leads more weaker attempt :=
  Program.Within.mono leads wider fun _ holds result same =>
    weaken result (holds result same)

theorem leads_lift {ends : α → Prop} {program : Program interface α}
    (within : program.Within allowed ends) :
    Leads allowed ends (ExceptT.lift program : Attempt interface Error α) := by
  rw [Leads, ExceptT.run_lift, ← bind_pure_comp]
  refine within.bind fun result holds => ?_
  intro other same
  cases same
  exact holds

theorem Leads.outcome {ends : α → Prop} {attempt : Attempt interface Error α}
    (leads : Leads allowed ends attempt) :
    Leads allowed (fun outcome => ∀ result, outcome = .ok result → ends result)
      (outcome attempt) :=
  leads_lift leads

theorem Leads.within {ends : α → Prop} {attempt : Attempt interface Error α}
    (leads : Leads allowed ends attempt) : Within allowed attempt :=
  Program.Within.mono leads (fun _ holds => holds) fun _ _ => trivial

theorem Within.leads {attempt : Attempt interface Error α}
    (within : Within allowed attempt) : Leads allowed (fun _ => True) attempt :=
  Program.Within.mono within (fun _ holds => holds) fun _ _ _ _ => trivial

theorem within_ofExcept (value : Except Error α) :
    Within allowed (ofExcept value : Attempt interface Error α) := by
  cases value with
  | ok result => exact within_pure result
  | error error => exact within_throw error

section

variable {system : System interface World}
  {good : Past interface World → Moment interface World → Prop}
  {inv : Past interface World → World → Prop}
  {attempt : Attempt interface Error α} {past : Past interface World} {world : World}

theorem Within.guarded (within : Within allowed attempt)
    (keeps : Keeps system allowed good inv) (start : inv past world) :
    Guarded system good (fun past world _ => inv past world)
      (fun past world _ => inv past world) attempt past world := by
  apply Effects.Guarded.post_mono (Effects.Guarded.of_within keeps within start)
  intro past world outcome holds
  cases outcome <;> exact holds.1

theorem guarded_any : Guarded system (fun _ _ => True) (fun _ _ _ => True)
    (fun _ _ _ => True) attempt past world := by
  have keeps : Keeps system (fun _ => True) (fun _ _ => True) fun _ _ => True :=
    fun _ _ _ _ _ _ _ _ => ⟨trivial, trivial⟩
  apply Effects.Guarded.post_mono
    (Effects.Guarded.of_within keeps (Program.within_any attempt.run) trivial)
  intro later world outcome _
  cases outcome <;> trivial

theorem suffix_after : Guarded system (fun _ _ => True) (fun later _ _ => past <:+ later)
    (fun _ _ _ => True) attempt past world := by
  have anything : Guarded system (fun _ _ => True) (fun _ _ _ => True) (fun _ _ _ => True)
      attempt past world := guarded_any
  apply Effects.Guarded.mono (grows anything (List.suffix_refl past)) fun _ _ _ => trivial
  intro later world outcome holds
  cases outcome with
  | ok result => exact holds.1
  | error error => trivial

theorem Leads.guarded {ends : α → Prop} (leads : Leads allowed ends attempt)
    (keeps : Keeps system allowed good inv) (start : inv past world) :
    Guarded system good (fun past world result => inv past world ∧ ends result)
      (fun past world _ => inv past world) attempt past world := by
  apply Effects.Guarded.post_mono (Effects.Guarded.of_within keeps leads start)
  intro past world outcome holds
  cases outcome with
  | ok result => exact ⟨holds.1, holds.2 result rfl⟩
  | error error => exact holds.1

theorem Steady.guarded {failed : Past interface World → World → Error → Prop}
    (steady : Steady allowed attempt) (keeps : Keeps system allowed good inv)
    (start : inv past world) :
    Guarded system good (fun past world _ => inv past world) failed attempt past
      world := by
  apply Effects.Guarded.post_mono (Effects.Guarded.of_within keeps steady start)
  rintro past world outcome ⟨holds, result, rfl⟩
  exact holds

end

end Attempt

end Homelab.Effects
