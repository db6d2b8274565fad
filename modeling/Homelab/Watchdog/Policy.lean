import Homelab.Foundation.ByteText

/-! # Watchdog policy: what one scan decides for one container -/

namespace Homelab.Watchdog

open ByteText

/-- The counters the watchdog keeps for one container. -/
structure State where
  consecutive : Int
  restarts : Int
  lastRestart : Int
  lastAlert : Int
deriving DecidableEq, Repr

def State.zero : State := ⟨0, 0, 0, 0⟩

inductive Action
  | none
  | wait
  | restart
  | budget
deriving DecidableEq, Repr

structure Plan where
  state : State
  action : Action
  notify : Bool
deriving DecidableEq, Repr

/-- `Decide` before the unhealthy branch: recovery clears the streak and the
alert stamp, and a day after the last restart the budget is whole again. -/
def State.decay (s : State) (unhealthy : Bool) (now : Int) : State :=
  let s := if unhealthy then s else { s with consecutive := 0, lastAlert := 0 }
  if 0 < s.restarts ∧ 86400 ≤ now - s.lastRestart then { s with restarts := 0 }
  else s

def State.decide (s : State) (unhealthy : Bool)
    (now threshold budget cooldown : Int) : Plan :=
  let s := s.decay unhealthy now
  if unhealthy then
    let s := { s with consecutive := s.consecutive + 1 }
    if s.consecutive < threshold then ⟨s, .wait, false⟩
    else if s.restarts < budget then ⟨s, .restart, false⟩
    else if cooldown ≤ now - s.lastAlert then
      ⟨{ s with lastAlert := now }, .budget, true⟩
    else ⟨s, .budget, false⟩
  else ⟨s, .none, false⟩

def State.restarted (s : State) (now : Int) : State :=
  { s with consecutive := 0, restarts := s.restarts + 1, lastRestart := now }

/-! ## State files -/

def stateValue (text : Bytes) : Option Int :=
  (parseInt text).bind fun value =>
    if value < 0 ∨ 2 ^ 53 < value then none else some value

/-- `ParseState`: three or four numbers; a missing fourth one is zero. -/
def parseState (data : Bytes) : Except String State :=
  let parts := fields data
  if parts.length < 3 ∨ 4 < parts.length then
    .error "watchdog: malformed legacy state"
  else
    match parts.mapM stateValue with
    | some (consecutive :: restarts :: lastRestart :: rest) =>
        .ok ⟨consecutive, restarts, lastRestart, rest.headD 0⟩
    | _ => .error "watchdog: invalid state value"

/-- `State.bytes`. -/
def State.bytes (s : State) : Bytes :=
  decimal s.consecutive ++ 10 :: (decimal s.restarts ++ 10 ::
    (decimal s.lastRestart ++ 10 :: (decimal s.lastAlert ++ [10])))

example : parseState (State.bytes ⟨3, 1, 1700000000, 0⟩) =
    .ok ⟨3, 1, 1700000000, 0⟩ := by decide

/-- No counter is negative. Every state the watchdog reads or computes is
like this. -/
structure State.Natural (s : State) : Prop where
  consecutive : 0 ≤ s.consecutive
  restarts : 0 ≤ s.restarts
  lastRestart : 0 ≤ s.lastRestart
  lastAlert : 0 ≤ s.lastAlert

theorem State.zero_natural : State.zero.Natural := by
  constructor <;> decide

structure State.Storable (s : State) : Prop where
  natural : s.Natural
  consecutive : s.consecutive ≤ 2 ^ 53
  restarts : s.restarts ≤ 2 ^ 53
  lastRestart : s.lastRestart ≤ 2 ^ 53
  lastAlert : s.lastAlert ≤ 2 ^ 53

theorem State.zero_storable : State.zero.Storable :=
  ⟨State.zero_natural, by decide, by decide, by decide, by decide⟩

theorem stateValue_eq_some {text : Bytes} {value : Int}
    (read : stateValue text = some value) : 0 ≤ value ∧ value ≤ 2 ^ 53 := by
  rw [stateValue, Option.bind_eq_some_iff] at read
  rcases read with ⟨parsed, _, bounded⟩
  split at bounded
  · cases bounded
  · cases bounded
    omega

private theorem exists_of_mem_mapM {parts : List Bytes} {values : List Int}
    (read : parts.mapM stateValue = some values) {value : Int}
    (member : value ∈ values) : ∃ text, stateValue text = some value := by
  induction parts generalizing values with
  | nil =>
      simp only [List.mapM_nil, Option.pure_def, Option.some.injEq] at read
      subst read
      cases member
  | cons text parts induction =>
      simp only [List.mapM_cons, Option.bind_eq_bind, Option.bind_eq_some_iff,
        Option.pure_def, Option.some.injEq] at read
      rcases read with ⟨head, headRead, tail, tailRead, rfl⟩
      rcases List.mem_cons.mp member with rfl | member
      · exact ⟨text, headRead⟩
      · exact induction tailRead member

/-- A printed number is read back as itself, or rejected. -/
theorem stateValue_decimal {number value : Int} (nonnegative : 0 ≤ number)
    (read : stateValue (decimal number) = some value) : value = number := by
  rw [stateValue, Option.bind_eq_some_iff] at read
  rcases read with ⟨parsed, parsedText, bounded⟩
  have fits := parseInt_decimal_lt nonnegative parsedText
  rw [parseInt_decimal nonnegative fits, Option.some.injEq] at parsedText
  subst parsedText
  split at bounded
  · cases bounded
  · cases bounded
    rfl

theorem fields_bytes {s : State} (natural : s.Natural) :
    fields s.bytes = [decimal s.consecutive, decimal s.restarts,
      decimal s.lastRestart, decimal s.lastAlert] := by
  rw [State.bytes, fields_decimal_line natural.consecutive,
    fields_decimal_line natural.restarts, fields_decimal_line natural.lastRestart,
    fields_decimal_line natural.lastAlert]
  rfl

/-- A state file that `ParseState` accepts reads back as what was written. It
is rejected only when a value has grown past the reader's bound. -/
theorem parseState_bytes {s : State} (natural : s.Natural) {read : State}
    (parsed : parseState s.bytes = .ok read) : read = s := by
  simp only [parseState, fields_bytes natural] at parsed
  split at parsed
  · cases parsed
  · split at parsed
    · rename_i consecutive restarts lastRestart rest values
      simp only [List.mapM_cons, List.mapM_nil, Option.bind_eq_bind,
        Option.bind_eq_some_iff, Option.pure_def, Option.some.injEq,
        List.cons.injEq] at values
      rcases values with ⟨_, readConsecutive, _, ⟨_, readRestarts, _,
        ⟨_, readLastRestart, _, ⟨_, readLastAlert, _, rfl, rfl⟩, rfl⟩, rfl⟩,
        rfl, rfl, rfl, rfl⟩
      cases parsed
      rw [stateValue_decimal natural.consecutive readConsecutive,
        stateValue_decimal natural.restarts readRestarts,
        stateValue_decimal natural.lastRestart readLastRestart,
        stateValue_decimal natural.lastAlert readLastAlert]
      rfl
    · cases parsed

/-- Whatever `ParseState` accepts is within its bound. -/
theorem parseState_storable {data : Bytes} {s : State}
    (parsed : parseState data = .ok s) : s.Storable := by
  simp only [parseState] at parsed
  split at parsed
  · cases parsed
  · split at parsed
    · rename_i consecutive restarts lastRestart rest values
      cases parsed
      have each : ∀ value ∈ consecutive :: restarts :: lastRestart :: rest,
          0 ≤ value ∧ value ≤ 2 ^ 53 := by
        intro value member
        rcases exists_of_mem_mapM values member with ⟨text, read⟩
        exact stateValue_eq_some read
      have last : 0 ≤ rest.headD 0 ∧ rest.headD 0 ≤ 2 ^ 53 := by
        cases rest with
        | nil => decide
        | cons lastAlert rest => exact each lastAlert (by simp)
      have first := each consecutive (by simp)
      have second := each restarts (by simp)
      have third := each lastRestart (by simp)
      exact ⟨⟨first.1, second.1, third.1, last.1⟩, first.2, second.2, third.2, last.2⟩
    · cases parsed

theorem parseState_natural {data : Bytes} {s : State}
    (parsed : parseState data = .ok s) : s.Natural := (parseState_storable parsed).natural

theorem stateValue_printed {value : Int} (natural : 0 ≤ value) (small : value ≤ 2 ^ 53) :
    stateValue (decimal value) = some value := by
  rw [stateValue, parseInt_decimal natural (by omega), Option.bind_some, if_neg (by omega)]

/-- A state is read back from its file exactly if it is storable. -/
theorem State.storable_iff {s : State} : parseState s.bytes = .ok s ↔ s.Storable := by
  constructor
  · exact parseState_storable
  · intro ⟨natural, consecutive, restarts, lastRestart, lastAlert⟩
    rw [parseState, fields_bytes natural]
    simp [stateValue_printed natural.consecutive consecutive,
      stateValue_printed natural.restarts restarts,
      stateValue_printed natural.lastRestart lastRestart,
      stateValue_printed natural.lastAlert lastAlert]

/-- What a state file is read as. Without one every counter is zero. -/
def stateOf (file : Option Bytes) : State :=
  match file with
  | none => .zero
  | some content =>
      match parseState content with
      | .ok s => s
      | .error _ => .zero

theorem stateOf_parsed {content : Bytes} {s : State} (parsed : parseState content = .ok s) :
    stateOf (some content) = s := by
  rw [stateOf, parsed]

/-! ## What `Decide` can do -/

@[simp] theorem State.decay_consecutive (s : State) (unhealthy : Bool)
    (now : Int) : (s.decay unhealthy now).consecutive =
      if unhealthy then s.consecutive else 0 := by
  cases unhealthy <;> simp only [State.decay] <;> split_ifs <;> rfl

@[simp] theorem State.decay_restarts (s : State) (unhealthy : Bool)
    (now : Int) : (s.decay unhealthy now).restarts =
      if 0 < s.restarts ∧ 86400 ≤ now - s.lastRestart then 0
      else s.restarts := by
  cases unhealthy <;> simp only [State.decay] <;> split_ifs <;> simp_all

@[simp] theorem State.decay_lastRestart (s : State) (unhealthy : Bool)
    (now : Int) : (s.decay unhealthy now).lastRestart = s.lastRestart := by
  cases unhealthy <;> simp only [State.decay] <;> split_ifs <;> rfl

@[simp] theorem State.decay_lastAlert (s : State) (unhealthy : Bool)
    (now : Int) : (s.decay unhealthy now).lastAlert =
      if unhealthy then s.lastAlert else 0 := by
  cases unhealthy <;> simp only [State.decay] <;> split_ifs <;> rfl

@[simp] theorem State.decide_consecutive (s : State) (unhealthy : Bool)
    (now threshold budget cooldown : Int) :
    (s.decide unhealthy now threshold budget cooldown).state.consecutive =
      if unhealthy then s.consecutive + 1 else 0 := by
  cases unhealthy with
  | false => simp [State.decide]
  | true =>
      simp only [State.decide, if_true]
      split_ifs <;> simp

@[simp] theorem State.decide_restarts (s : State) (unhealthy : Bool)
    (now threshold budget cooldown : Int) :
    (s.decide unhealthy now threshold budget cooldown).state.restarts =
      if 0 < s.restarts ∧ 86400 ≤ now - s.lastRestart then 0
      else s.restarts := by
  rw [← State.decay_restarts s unhealthy now]
  simp only [State.decide]
  split_ifs <;> rfl

@[simp] theorem State.decide_lastRestart (s : State) (unhealthy : Bool)
    (now threshold budget cooldown : Int) :
    (s.decide unhealthy now threshold budget cooldown).state.lastRestart =
      s.lastRestart := by
  rw [← State.decay_lastRestart s unhealthy now]
  simp only [State.decide]
  split_ifs <;> rfl

/-- A restart is planned only after enough polls and within the budget. -/
theorem State.decide_restart {s : State} {unhealthy : Bool}
    {now threshold budget cooldown : Int}
    (restart : (s.decide unhealthy now threshold budget cooldown).action =
      .restart) :
    unhealthy = true ∧ threshold ≤ s.consecutive + 1 ∧
      (s.decide unhealthy now threshold budget cooldown).state.restarts <
        budget := by
  cases unhealthy with
  | false => simp [State.decide] at restart
  | true =>
      simp only [State.decide, if_true, State.decay_consecutive] at restart ⊢
      split at restart
      · cases restart
      · split at restart
        · rename_i patient room
          refine ⟨trivial, by omega, ?_⟩
          rw [if_neg patient, if_pos room]
          exact room
        · split at restart <;> cases restart

/-- Unless a page of the exhausted budget is due, no stamp is set. -/
theorem State.decide_lastAlert {s : State} {unhealthy : Bool}
    {now threshold budget cooldown : Int}
    (quiet : ¬((s.decide unhealthy now threshold budget cooldown).action = .budget ∧
      (s.decide unhealthy now threshold budget cooldown).notify = true)) :
    (s.decide unhealthy now threshold budget cooldown).state.lastAlert =
      if unhealthy then s.lastAlert else 0 := by
  rw [← State.decay_lastAlert s unhealthy now]
  simp only [State.decide] at quiet ⊢
  split_ifs at quiet ⊢ <;> first | rfl | exact absurd ⟨rfl, rfl⟩ quiet

/-- A page of the exhausted budget waits for the cooldown. -/
theorem State.decide_budget {s : State} {unhealthy : Bool} {now threshold budget cooldown : Int}
    (exhausted : (s.decide unhealthy now threshold budget cooldown).action = .budget) :
    unhealthy = true ∧
      ((s.decide unhealthy now threshold budget cooldown).notify = true ↔
        cooldown ≤ now - s.lastAlert) := by
  cases unhealthy with
  | false => simp [State.decide] at exhausted
  | true =>
      simp only [State.decide, if_true, State.decay_lastAlert] at exhausted ⊢
      split_ifs at exhausted ⊢ with patient room due
      · simp [due]
      · simp [due]

/-- A page of the exhausted budget leaves its stamp. -/
theorem State.decide_stamp {s : State} {unhealthy : Bool} {now threshold budget cooldown : Int}
    (page : (s.decide unhealthy now threshold budget cooldown).notify = true) :
    (s.decide unhealthy now threshold budget cooldown).state.lastAlert = now := by
  simp only [State.decide] at page ⊢
  split_ifs at page ⊢
  rfl

theorem State.decay_natural {s : State} (natural : s.Natural)
    (unhealthy : Bool) (now : Int) : (s.decay unhealthy now).Natural := by
  rcases natural with ⟨consecutive, restarts, lastRestart, lastAlert⟩
  constructor
  · rw [decay_consecutive]
    split_ifs <;> omega
  · rw [decay_restarts]
    split_ifs <;> omega
  · rw [decay_lastRestart]
    exact lastRestart
  · rw [decay_lastAlert]
    split_ifs <;> omega

theorem State.decide_natural {s : State} (natural : s.Natural)
    (unhealthy : Bool) {now : Int} (started : 0 ≤ now)
    (threshold budget cooldown : Int) :
    (s.decide unhealthy now threshold budget cooldown).state.Natural := by
  rcases State.decay_natural natural unhealthy now with
    ⟨consecutive, restarts, lastRestart, lastAlert⟩
  have grown : 0 ≤ (s.decay unhealthy now).consecutive + 1 := by omega
  simp only [State.decide]
  split
  · split
    · exact ⟨grown, restarts, lastRestart, lastAlert⟩
    · split
      · exact ⟨grown, restarts, lastRestart, lastAlert⟩
      · split
        · exact ⟨grown, restarts, lastRestart, started⟩
        · exact ⟨grown, restarts, lastRestart, lastAlert⟩
  · exact ⟨consecutive, restarts, lastRestart, lastAlert⟩

theorem State.Natural.restarted {s : State} {now : Int} (natural : s.Natural)
    (started : 0 ≤ now) : (s.restarted now).Natural :=
  ⟨Int.le_refl 0, Int.add_nonneg natural.restarts (by decide), started, natural.lastAlert⟩

end Homelab.Watchdog
