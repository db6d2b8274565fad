import Homelab.Effects.Guarded

/-! # Programs that may fail

An attempt is a program that ends in a result or an error. An error skips the
rest of a sequence, as an early `return err` or a raised exception does; what
was done before it stays done.
-/

namespace Homelab.Effects

abbrev Attempt (interface : Interface) (Error Result : Type) :=
  ExceptT Error (Program interface) Result

variable {interface : Interface} {World Error α β : Type}

namespace Attempt

/-- An operation whose answer is itself a result or an error. -/
def ofProgram (program : Program interface (Except Error α)) :
    Attempt interface Error α := ExceptT.mk program

/-- The program that hands both outcomes of an attempt to its caller. -/
def outcome (attempt : Attempt interface Error α) :
    Attempt interface Error (Except Error α) := ExceptT.lift attempt.run

def ofExcept : Except Error α → Attempt interface Error α
  | .ok result => pure result
  | .error error => throw error

/-- A condition on the outcome from one on results and one on errors. -/
def Ends (post : Past interface World → World → α → Prop)
    (failed : Past interface World → World → Error → Prop)
    (past : Past interface World) (world : World) : Except Error α → Prop
  | .ok result => post past world result
  | .error error => failed past world error

/-- `Guarded` for attempts, with one postcondition for results and one for
errors. -/
def Guarded (system : System interface World)
    (good : Past interface World → Moment interface World → Prop)
    (post : Past interface World → World → α → Prop)
    (failed : Past interface World → World → Error → Prop)
    (attempt : Attempt interface Error α) (past : Past interface World)
    (world : World) : Prop :=
  Effects.Guarded system good (Ends post failed) attempt.run past world

section Rules

variable {system : System interface World}
  {good : Past interface World → Moment interface World → Prop}
  {post : Past interface World → World → α → Prop}
  {next : Past interface World → World → β → Prop}
  {failed : Past interface World → World → Error → Prop}
  {past : Past interface World} {world : World}

theorem pure_iff {result : α} :
    Guarded system good post failed (pure result) past world ↔
      post past world result := Iff.rfl

theorem lift_iff {program : Program interface α} :
    Guarded system good post failed
        (ExceptT.lift program : Attempt interface Error α) past world ↔
      Effects.Guarded system good post program past world := by
  rw [Guarded, ExceptT.run_lift, ← bind_pure_comp, Effects.Guarded.bind_iff]
  exact Iff.rfl

theorem outcome_iff {attempt : Attempt interface Error α}
    {both : Past interface World → World → Except Error α → Prop} :
    Guarded system good both failed (outcome attempt) past world ↔
      Effects.Guarded system good both attempt.run past world :=
  lift_iff

theorem ofExcept_iff {value : Except Error α} :
    Guarded system good post failed (ofExcept value) past world ↔
      Ends post failed past world value := by
  cases value <;> exact Iff.rfl

theorem bind_iff {attempt : Attempt interface Error α}
    {rest : α → Attempt interface Error β} :
    Guarded system good next failed (attempt >>= rest) past world ↔
      Guarded system good
        (fun past world result =>
          Guarded system good next failed (rest result) past world)
        failed attempt past world := by
  rw [Guarded, ExceptT.run_bind, Effects.Guarded.bind_iff, Guarded]
  constructor
  · intro guarded
    refine guarded.post_mono fun past world result holds => ?_
    cases result <;> exact holds
  · intro guarded
    refine guarded.post_mono fun past world result holds => ?_
    cases result <;> exact holds

theorem mono {attempt : Attempt interface Error α}
    {better : Past interface World → World → α → Prop}
    {worse : Past interface World → World → Error → Prop}
    (guarded : Guarded system good post failed attempt past world)
    (onResult : ∀ past world result, post past world result →
      better past world result)
    (onError : ∀ past world error, failed past world error →
      worse past world error) :
    Guarded system good better worse attempt past world := by
  refine Effects.Guarded.post_mono guarded fun past world result holds => ?_
  cases result with
  | ok result => exact onResult past world result holds
  | error error => exact onError past world error holds

theorem result_mono {attempt : Attempt interface Error α}
    {better : Past interface World → World → α → Prop}
    (guarded : Guarded system good post failed attempt past world)
    (onResult : ∀ past world result, post past world result →
      better past world result) :
    Guarded system good better failed attempt past world :=
  mono guarded onResult fun _ _ _ holds => holds

theorem both {good' : Past interface World → Moment interface World → Prop}
    {post' : Past interface World → World → α → Prop}
    {failed' : Past interface World → World → Error → Prop}
    {attempt : Attempt interface Error α}
    (first : Guarded system good post failed attempt past world)
    (second : Guarded system good' post' failed' attempt past world) :
    Guarded system (fun past moment => good past moment ∧ good' past moment)
      (fun past world result => post past world result ∧ post' past world result)
      (fun past world error => failed past world error ∧ failed' past world error)
      attempt past world := by
  refine Effects.Guarded.post_mono (Effects.Guarded.both first second) ?_
  intro past world outcome holds
  cases outcome <;> exact holds

/-- What happened before an attempt is still in the past of all of it. -/
theorem grows {before : Past interface World} {attempt : Attempt interface Error α}
    (guarded : Guarded system good post failed attempt past world)
    (start : before <:+ past) :
    Guarded system (fun past moment => before <:+ past ∧ good past moment)
      (fun past world result => before <:+ past ∧ post past world result)
      (fun past world error => before <:+ past ∧ failed past world error)
      attempt past world := by
  refine Effects.Guarded.post_mono (Effects.Guarded.grows guarded start) ?_
  intro past world outcome holds
  cases outcome <;> exact holds

/-- Nothing is asked of an error. -/
theorem any_error {attempt : Attempt interface Error α}
    (guarded : Guarded system good post failed attempt past world) :
    Guarded system good post (fun _ _ _ => True) attempt past world :=
  mono guarded (fun _ _ _ holds => holds) fun _ _ _ _ => trivial

/-- An attempt that ended in a result has been executed. -/
theorem recorded {attempt : Attempt interface Error α}
    (guarded : Guarded system good post failed attempt past world) :
    Guarded system good (fun past' world' result => post past' world' result ∧
      ∃ moments, past' = moments.reverse ++ past ∧
        Executes system attempt.run world moments world' (some (.ok result)))
      failed attempt past world := by
  refine Effects.Guarded.post_mono (Effects.Guarded.recorded guarded) ?_
  rintro past' world' (error | result) ⟨holds, executed⟩
  · exact holds
  · exact ⟨holds, executed⟩

/-- The sequencing rule: both programs share what an error has to satisfy. -/
theorem bind {middle : Past interface World → World → α → Prop}
    {attempt : Attempt interface Error α}
    {rest : α → Attempt interface Error β}
    (first : Guarded system good middle failed attempt past world)
    (second : ∀ past world result, middle past world result →
      Guarded system good next failed (rest result) past world) :
    Guarded system good next failed (attempt >>= rest) past world :=
  bind_iff.mpr (result_mono first second)

/-- A sequence that starts with one operation. -/
theorem call_bind {operation : interface.Operation}
    {rest : interface.Answer operation → Attempt interface Error β} :
    Guarded system good next failed
        ((ExceptT.lift (.call operation .done) : Attempt interface Error _) >>= rest)
        past world ↔
      ∀ answer after, system.Step world operation answer after →
        good past ⟨world, operation, answer, after⟩ ∧
          Guarded system good next failed (rest answer)
            (⟨world, operation, answer, after⟩ :: past) after := by
  rw [bind_iff, lift_iff]
  exact Iff.rfl

end Rules

end Attempt

end Homelab.Effects
