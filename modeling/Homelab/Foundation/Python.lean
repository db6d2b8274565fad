import Homelab.Foundation.Lines
import Mathlib.Data.Rat.Floor

/-! # Values as Python reads them from JSON

What `json.loads` returns, and the built-in operations on such values, each with the
exceptions it can raise. Text has no halves of surrogate pairs here.
-/

namespace Homelab.Python

open Text

inductive Raised
  | typeError
  | valueError
  | keyError
  | attributeError
  | overflowError
  | recursionError
deriving DecidableEq, Repr

inductive PyFloat
  | nan
  | infinite (negative : Bool)
  | finite (value : ℚ)
deriving DecidableEq, Repr

inductive Value
  | none
  | bool (value : Bool)
  | int (value : Int)
  | float (value : PyFloat)
  | str (text : String)
  | list (items : List Value)
  | dict (fields : List (String × Value))

namespace Value

/-- `bool(value)`. -/
def truthy : Value → Bool
  | .none => false
  | .bool value => value
  | .int value => value ≠ 0
  | .float (.finite value) => value ≠ 0
  | .float _ => true
  | .str text => text ≠ ""
  | .list items => !items.isEmpty
  | .dict fields => !fields.isEmpty

def isText (text : String) : Value → Bool
  | .str own => own = text
  | _ => false

def get (value : Value) (name : String) (default : Value) : Except Raised Value :=
  match value with
  | .dict fields => .ok ((fields.lookup name).getD default)
  | _ => .error .attributeError

/-- `value[name]` for a text `name`. -/
def subscript (name : String) : Value → Except Raised Value
  | .dict fields =>
      match fields.lookup name with
      | some value => .ok value
      | Option.none => .error .keyError
  | _ => .error .typeError

/-- What a `for` loop over the value goes through. -/
def iterate : Value → Except Raised (List Value)
  | .list items => .ok items
  | .dict fields => .ok (fields.map fun field => .str field.1)
  | .str text => .ok (text.toList.map fun char => .str (.singleton char))
  | _ => .error .typeError

end Value

def trunc (number : ℚ) : Int := number.num.tdiv number.den

theorem trunc_nonneg {number : ℚ} (positive : 0 ≤ number) : trunc number = ⌊number⌋ := by
  rw [trunc, Int.tdiv_eq_ediv_of_nonneg (Rat.num_nonneg.mpr positive), Rat.floor_def']

theorem trunc_neg (number : ℚ) : trunc (-number) = -trunc number := by
  rw [trunc, Rat.num_neg_eq_neg_num, Rat.den_neg_eq_den, Int.neg_tdiv, trunc]

theorem trunc_lt {number : ℚ} {bound : Int} (below : number < bound) (positive : 0 < bound) :
    trunc number < bound := by
  rcases le_total 0 number with sign | sign
  · rw [trunc_nonneg sign]
    exact Int.floor_lt.mpr below
  · have rest : 0 ≤ trunc (-number) := by
      rw [trunc_nonneg (neg_nonneg.mpr sign)]
      exact Int.floor_nonneg.mpr (neg_nonneg.mpr sign)
    rw [trunc_neg] at rest
    omega

theorem le_trunc {number : ℚ} {bound : Int} (above : bound ≤ number) (negative : bound ≤ 0) :
    bound ≤ trunc number := by
  rcases le_total 0 number with sign | sign
  · have rest : 0 ≤ trunc number := by
      rw [trunc_nonneg sign]
      exact Int.floor_nonneg.mpr sign
    omega
  · have rest : trunc (-number) ≤ -bound := by
      rw [trunc_nonneg (neg_nonneg.mpr sign)]
      have below : -number ≤ ((-bound : Int) : ℚ) := by
        push_cast
        exact neg_le_neg above
      exact Int.floor_le_floor below |>.trans (Int.floor_intCast _).le
    rw [trunc_neg] at rest
    omega

/-- `int(text)`. -/
def intOfText (text : String) : Except Raised Int :=
  match intOf text with
  | some value => .ok value
  | none => .error .valueError

/-- `int(value)`. -/
def Value.toInt : Value → Except Raised Int
  | .bool value => .ok (if value then 1 else 0)
  | .int value => .ok value
  | .float .nan => .error .valueError
  | .float (.infinite _) => .error .overflowError
  | .float (.finite value) => .ok (trunc value)
  | .str text => intOfText text
  | _ => .error .typeError

example : Value.toInt (.float (.finite (-3 / 2))) = .ok (-1) := by decide +kernel

/-! ## Results -/

@[simp] theorem ok_bind {α β : Type} (value : α) (next : α → Except Raised β) :
    (Except.ok value >>= next) = next value := rfl

@[simp] theorem error_bind {α β : Type} (raised : Raised) (next : α → Except Raised β) :
    ((Except.error raised : Except Raised α) >>= next) = .error raised := rfl

theorem mapM_ok {α β : Type} {items : List α} {make : α → Except Raised β} {result : α → β}
    (each : ∀ item ∈ items, make item = .ok (result item)) :
    items.mapM make = .ok (items.map result) := by
  induction items with
  | nil => rfl
  | cons item rest induction =>
      rw [List.mapM_cons, each item List.mem_cons_self,
        induction fun own member => each own (List.mem_cons_of_mem _ member)]
      rfl

/-! ## Dictionaries -/

/-- What a value is as a key: numbers of the same value are the same key. -/
inductive Key
  | none
  | number (value : ℚ)
  | infinite (negative : Bool)
  | text (text : String)
deriving DecidableEq, Repr

/-- The key a value hashes to. A NaN is equal to no key that is looked up later. -/
def Value.key : Value → Except Raised (Option Key)
  | .none => .ok (some .none)
  | .bool value => .ok (some (.number (if value then 1 else 0)))
  | .int value => .ok (some (.number value))
  | .float .nan => .ok Option.none
  | .float (.infinite negative) => .ok (some (.infinite negative))
  | .float (.finite value) => .ok (some (.number value))
  | .str text => .ok (some (.text text))
  | .list _ => .error .typeError
  | .dict _ => .error .typeError

abbrev Table (κ ν : Type) := List (κ × ν)

namespace Table

variable {κ ν : Type} [DecidableEq κ]

def put (key : κ) (value : ν) : Table κ ν → Table κ ν
  | [] => [(key, value)]
  | entry :: rest =>
      if entry.1 = key then (key, value) :: rest else entry :: put key value rest

def pop (key : κ) (table : Table κ ν) : Table κ ν :=
  table.filter fun entry => entry.1 ≠ key

theorem lookup_cons (key other : κ) (value : ν) (rest : Table κ ν) :
    List.lookup other ((key, value) :: rest) =
      if other = key then some value else rest.lookup other := by
  by_cases same : other = key
  · simp [same]
  · simp [List.lookup_cons, same, beq_eq_false_iff_ne.mpr same]

theorem lookup_put (key other : κ) (value : ν) (table : Table κ ν) :
    (put key value table).lookup other =
      if other = key then some value else table.lookup other := by
  induction table with
  | nil => exact lookup_cons key other value []
  | cons entry rest induction =>
      rcases entry with ⟨own, kept⟩
      rw [put, lookup_cons]
      split
      · next same =>
          rw [lookup_cons, ← same]
          split <;> rfl
      · next different =>
          rw [lookup_cons, induction]
          by_cases equal : other = own
          · subst other
            rw [if_pos rfl, if_neg different, if_pos rfl]
          · rw [if_neg equal, if_neg equal]

theorem lookup_pop (key other : κ) (table : Table κ ν) :
    (pop key table).lookup other = if other = key then none else table.lookup other := by
  induction table with
  | nil => simp [pop]
  | cons entry rest induction =>
      rcases entry with ⟨own, kept⟩
      rw [pop, List.filter_cons, lookup_cons]
      split
      · next different =>
          rw [lookup_cons]
          by_cases equal : other = own
          · subst other
            rw [if_pos rfl, if_neg (by simpa using different), if_pos rfl]
          · rw [if_neg equal, if_neg equal]
            exact induction
      · next same =>
          have same : own = key := by simpa using same
          refine induction.trans ?_
          subst own
          split <;> rfl

theorem keys_put (key : κ) (value : ν) (table : Table κ ν) :
    (put key value table).map Prod.fst =
      if key ∈ table.map Prod.fst then table.map Prod.fst
      else table.map Prod.fst ++ [key] := by
  induction table with
  | nil => rfl
  | cons entry rest induction =>
      rw [put]
      split
      · next same => simp [same]
      · next different =>
          simp only [List.map_cons, induction, List.mem_cons, Ne.symm different, false_or]
          split <;> simp

end Table

structure Dict (κ ν : Type) where
  entries : Table κ ν
  distinct : (entries.map Prod.fst).Nodup

namespace Dict

variable {κ ν : Type} [DecidableEq κ]

def empty : Dict κ ν where
  entries := []
  distinct := List.nodup_nil

def lookup (key : κ) (dict : Dict κ ν) : Option ν := List.lookup key dict.entries

theorem put_distinct (key : κ) (value : ν) (dict : Dict κ ν) :
    ((dict.entries.put key value).map Prod.fst).Nodup := by
  rw [Table.keys_put]
  split
  · exact dict.distinct
  · next fresh =>
      refine List.nodup_append.mpr ⟨dict.distinct, by simp, fun own member other last => ?_⟩
      rw [List.mem_singleton] at last
      exact fun same => fresh (last ▸ same ▸ member)

def put (key : κ) (value : ν) (dict : Dict κ ν) : Dict κ ν where
  entries := dict.entries.put key value
  distinct := put_distinct key value dict

theorem pop_distinct (key : κ) (dict : Dict κ ν) :
    ((dict.entries.pop key).map Prod.fst).Nodup :=
  dict.distinct.sublist (List.filter_sublist.map Prod.fst)

def pop (key : κ) (dict : Dict κ ν) : Dict κ ν where
  entries := dict.entries.pop key
  distinct := pop_distinct key dict

@[simp] theorem lookup_empty (key : κ) : (empty : Dict κ ν).lookup key = none := rfl

theorem lookup_put (key other : κ) (value : ν) (dict : Dict κ ν) :
    (dict.put key value).lookup other =
      if other = key then some value else dict.lookup other :=
  Table.lookup_put key other value dict.entries

theorem lookup_pop (key other : κ) (dict : Dict κ ν) :
    (dict.pop key).lookup other = if other = key then none else dict.lookup other :=
  Table.lookup_pop key other dict.entries

theorem entries_eq_nil {dict : Dict κ ν} (absent : ∀ key, dict.lookup key = none) :
    dict.entries = [] := by
  cases listed : dict.entries with
  | nil => rfl
  | cons entry rest =>
      have found := absent entry.1
      rw [lookup, listed, Table.lookup_cons, if_pos rfl] at found
      cases found

/-- Looking a key up finds its one entry. -/
theorem lookup_eq_some_iff (key : κ) (value : ν) (dict : Dict κ ν) :
    dict.lookup key = some value ↔ (key, value) ∈ dict.entries := by
  rcases dict with ⟨entries, distinct⟩
  rw [lookup]
  induction entries with
  | nil => simp
  | cons entry rest induction =>
      rcases entry with ⟨own, kept⟩
      rw [List.map_cons, List.nodup_cons] at distinct
      rw [Table.lookup_cons, List.mem_cons, Prod.mk.injEq]
      split
      · next same =>
          subst same
          have absent : (key, value) ∉ rest := fun member =>
            distinct.1 (List.mem_map.mpr ⟨_, member, rfl⟩)
          simp [absent, eq_comm]
      · next different =>
          simp only [different, false_and, false_or]
          exact induction distinct.2

end Dict

end Homelab.Python
