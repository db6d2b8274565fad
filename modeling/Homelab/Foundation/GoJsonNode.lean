import Homelab.Foundation.GoJsonStream

/-! # Values with their text

A value that decodes itself gets its own text from `json.Unmarshal`. A node is a value and the
text from its first character on, and so are its items and its fields. The text has been
checked by then, so it is read as deep as it goes.
-/

namespace Homelab.GoJson

open Text Json GoText

/-! ## Nodes -/

structure Node where
  tree : Tree
  source : Line

def Node.spelled (node : Node) : Line :=
  match scanValue (2 * node.source.length + 1) node.tree.height node.source with
  | some (_, rest) => node.source.take (node.source.length - rest.length)
  | none => []

/-- As `scanItems`, each item with its text. -/
def nodeItems (steps depth : Nat) (chars : Line) : Option (List Node × Line) :=
  match steps with
  | 0 => none
  | steps + 1 => do
      let (tree, rest) ← scanValue steps depth chars
      match skip rest with
      | ',' :: rest => do
          let (items, rest) ← nodeItems steps depth (skip rest)
          return (⟨tree, chars⟩ :: items, rest)
      | ']' :: rest => return ([⟨tree, chars⟩], rest)
      | _ => none

/-- As `scanFields`, each field with its text. -/
def nodeFields (steps depth : Nat) (chars : Line) : Option (List (Line × Node) × Line) :=
  match steps with
  | 0 => none
  | steps + 1 =>
      match chars with
      | '"' :: rest => do
          let (name, rest) ← scanString none rest
          match skip rest with
          | ':' :: rest => do
              let chars := skip rest
              let (tree, rest) ← scanValue steps depth chars
              match skip rest with
              | ',' :: rest => do
                  let (fields, rest) ← nodeFields steps depth (skip rest)
                  return ((name, ⟨tree, chars⟩) :: fields, rest)
              | '\x7d' :: rest => return ([(name, ⟨tree, chars⟩)], rest)
              | _ => none
          | _ => none
      | _ => none

def Node.items (node : Node) : List Node :=
  match node.tree with
  | .list (_ :: _) =>
      match nodeItems (2 * node.source.length) node.tree.height (skip node.source.tail) with
      | some (items, _) => items
      | none => []
  | _ => []

def Node.fields (node : Node) : List (Line × Node) :=
  match node.tree with
  | .dict (_ :: _) =>
      match nodeFields (2 * node.source.length) node.tree.height (skip node.source.tail) with
      | some (fields, _) => fields
      | none => []
  | _ => []

def parseNode (text : Line) : Option Node := (parse text).map fun tree => ⟨tree, skip text⟩

def Node.Sound (node : Node) : Prop :=
  ∃ steps depth rest, scanValue steps depth node.source = some (node.tree, rest)

/-! ## Items and fields are nodes -/

theorem nodeItems_of_scanItems {steps depth : Nat} {chars rest : Line} {trees : List Tree}
    (read : scanItems steps depth chars = some (trees, rest)) :
    ∃ items, nodeItems steps depth chars = some (items, rest) ∧ items.map Node.tree = trees ∧
      ∀ item ∈ items, item.Sound := by
  induction steps generalizing chars trees with
  | zero => cases read
  | succ steps induction =>
      rw [scanItems] at read
      rcases Option.bind_eq_some_iff.mp read with ⟨⟨tree, after⟩, scanned, continues⟩
      have first : Node.Sound ⟨tree, chars⟩ := ⟨steps, depth, after, scanned⟩
      rw [nodeItems, scanned]
      simp only [bind, Option.bind_some] at continues ⊢
      generalize skip after = following at continues ⊢
      split at continues
      · rcases Option.bind_eq_some_iff.mp continues with ⟨⟨others, rest'⟩, more, same⟩
        cases same
        rcases induction more with ⟨items, listed, trees, sound⟩
        simp only [listed]
        exact ⟨_, rfl, congrArg _ trees, List.forall_mem_cons.mpr ⟨first, sound⟩⟩
      · cases continues
        exact ⟨[⟨tree, chars⟩], rfl, rfl, List.forall_mem_singleton.mpr first⟩
      · cases continues

theorem nodeFields_of_scanFields {steps depth : Nat} {chars rest : Line}
    {trees : List (Line × Tree)} (read : scanFields steps depth chars = some (trees, rest)) :
    ∃ fields, nodeFields steps depth chars = some (fields, rest) ∧
      fields.map (fun (name, node) => (name, node.tree)) = trees ∧
      ∀ field ∈ fields, field.2.Sound := by
  induction steps generalizing chars trees with
  | zero => cases read
  | succ steps induction =>
      rw [scanFields.eq_def] at read
      rw [nodeFields.eq_def]
      simp only at read ⊢
      split at read
      · rcases Option.bind_eq_some_iff.mp read with ⟨⟨name, colon⟩, named, read⟩
        simp only [named, bind, Option.bind_some] at read ⊢
        generalize skip colon = named at read ⊢
        split at read
        · next value =>
            rcases Option.bind_eq_some_iff.mp read with ⟨⟨tree, after⟩, scanned, continues⟩
            have first : Node.Sound ⟨tree, skip value⟩ := ⟨steps, depth, after, scanned⟩
            simp only [scanned, Option.bind_some]
            simp only at continues
            generalize skip after = following at continues ⊢
            split at continues
            · rcases Option.bind_eq_some_iff.mp continues with ⟨⟨others, rest'⟩, more, same⟩
              cases same
              rcases induction more with ⟨fields, listed, trees, sound⟩
              simp only [listed]
              exact ⟨_, rfl, congrArg _ trees, List.forall_mem_cons.mpr ⟨first, sound⟩⟩
            · cases continues
              exact ⟨[(name, ⟨tree, skip value⟩)], rfl, rfl,
                List.forall_mem_singleton.mpr first⟩
            · cases continues
        · cases read
      · cases read

inductive Shape (chars : Line) (rest : Line) : Tree → Prop
  | flat {tree : Tree} (list : ∀ items, tree ≠ .list items) (dict : ∀ fields, tree ≠ .dict fields) :
      Shape chars rest tree
  | list (own : Line) (items : List Tree) (opened : chars = '[' :: own)
      (scanned : items ≠ [] →
        ∃ steps depth, scanItems steps depth (skip own) = some (items, rest)) :
      Shape chars rest (.list items)
  | dict (own : Line) (fields : List (Line × Tree)) (opened : chars = '\x7b' :: own)
      (scanned : fields ≠ [] →
        ∃ steps depth, scanFields steps depth (skip own) = some (fields, rest)) :
      Shape chars rest (.dict fields)

theorem scanAtom_shape {chars rest : Line} {tree : Tree}
    (read : scanAtom chars = some (tree, rest)) : Shape chars rest tree := by
  rw [scanAtom] at read
  split at read
  · next name constant found =>
      have member := List.mem_of_find?_eq_some found
      cases read
      simp only [constants, List.mem_cons, Prod.mk.injEq, List.not_mem_nil, or_false] at member
      rcases member with ⟨_, rfl⟩ | ⟨_, rfl⟩ | ⟨_, rfl⟩ <;> exact .flat (by simp) (by simp)
  · rcases Option.map_eq_some_iff.mp read with ⟨⟨numeral, after⟩, scanned, same⟩
    cases same
    exact .flat (by simp) (by simp)

theorem scanValue_shape {steps depth : Nat} {chars rest : Line} {tree : Tree}
    (read : scanValue steps depth chars = some (tree, rest)) : Shape chars rest tree := by
  rcases steps with _ | steps
  · cases read
  rw [scanValue.eq_def] at read
  simp only at read
  split at read
  · rcases Option.map_eq_some_iff.mp read with ⟨⟨text, after⟩, scanned, same⟩
    cases same
    exact .flat (by simp) (by simp)
  · next own =>
      rcases depth with _ | depth
      · cases read
      simp only at read
      split at read
      · cases read
        exact .list own [] rfl fun some_ => absurd rfl some_
      · rcases Option.map_eq_some_iff.mp read with ⟨⟨items, after⟩, scanned, same⟩
        cases same
        exact .list own items rfl fun _ => ⟨steps, depth, scanned⟩
  · next own =>
      rcases depth with _ | depth
      · cases read
      simp only at read
      split at read
      · cases read
        exact .dict own [] rfl fun some_ => absurd rfl some_
      · rcases Option.map_eq_some_iff.mp read with ⟨⟨fields, after⟩, scanned, same⟩
        cases same
        exact .dict own fields rfl fun _ => ⟨steps, depth, scanned⟩
  · exact scanAtom_shape read

/-- The items of a node are those of its list, each a node of its own. -/
theorem Node.Sound.items {node : Node} (sound : node.Sound) {trees : List Tree}
    (list : node.tree = .list trees) :
    node.items.map Node.tree = trees ∧ ∀ item ∈ node.items, item.Sound := by
  rcases sound with ⟨steps, depth, rest, read⟩
  rw [list] at read
  rw [Node.items, list]
  cases trees with
  | nil => simp
  | cons tree trees =>
      cases scanValue_shape read with
      | flat own _ => exact absurd rfl (own _)
      | list own _ opened scanned =>
          rcases scanned (by simp) with ⟨steps, depth, scanned⟩
          rcases (stepLocal steps).items scanned with ⟨front, some_, parts, again⟩
          have short := (List.dropWhile_suffix Json.isSpace (l := own)).length_le
          have spelled : (skip own).length = front.length + rest.length := by
            rw [parts, List.length_append]
          have enough := again rest (2 * node.source.length) (by
            rw [opened, List.length_cons]
            change (skip own).length ≤ own.length at short
            omega)
          have deep := (stepDeeper _).items enough (Tree.list (tree :: trees)).height
            (by simp [Tree.height])
          rcases nodeItems_of_scanItems deep with ⟨items, listed, same, all⟩
          rw [opened, List.length_cons] at listed
          simp only [opened, List.tail_cons, List.length_cons, parts, listed]
          exact ⟨same, all⟩

/-- The fields of a node are those of its object, each a node of its own. -/
theorem Node.Sound.fields {node : Node} (sound : node.Sound) {trees : List (Line × Tree)}
    (dict : node.tree = .dict trees) :
    node.fields.map (fun (name, own) => (name, own.tree)) = trees ∧
      ∀ field ∈ node.fields, field.2.Sound := by
  rcases sound with ⟨steps, depth, rest, read⟩
  rw [dict] at read
  rw [Node.fields, dict]
  cases trees with
  | nil => simp
  | cons tree trees =>
      cases scanValue_shape read with
      | flat _ own => exact absurd rfl (own _)
      | dict own _ opened scanned =>
          rcases scanned (by simp) with ⟨steps, depth, scanned⟩
          rcases (stepLocal steps).fields scanned with ⟨front, some_, parts, again⟩
          have short := (List.dropWhile_suffix Json.isSpace (l := own)).length_le
          have spelled : (skip own).length = front.length + rest.length := by
            rw [parts, List.length_append]
          have enough := again rest (2 * node.source.length) (by
            rw [opened, List.length_cons]
            change (skip own).length ≤ own.length at short
            omega)
          have deep := (stepDeeper _).fields enough (Tree.dict (tree :: trees)).height
            (by simp [Tree.height])
          rcases nodeFields_of_scanFields deep with ⟨fields, listed, same, all⟩
          rw [opened, List.length_cons] at listed
          simp only [opened, List.tail_cons, List.length_cons, parts, listed]
          exact ⟨same, all⟩

theorem parseNode_sound {text : Line} {node : Node} (parsed : parseNode text = some node) :
    node.Sound ∧ parse text = some node.tree := by
  rcases Option.map_eq_some_iff.mp parsed with ⟨tree, read, rfl⟩
  refine ⟨?_, read⟩
  rcases Option.bind_eq_some_iff.mp read with ⟨⟨tree', rest⟩, scanned, closed⟩
  simp only at closed
  split at closed
  · cases closed
    exact ⟨_, _, rest, scanned⟩
  · cases closed

example : ((parseNode " [\"a\\u0062\", 7 ]".toList).map fun node =>
    node.items.map Node.spelled) = some ["\"a\\u0062\"".toList, ['7']] := by
  decide +kernel

/-! ## Structs -/

/-- A text field; `null` leaves it as it is. -/
def readText (tree : Tree) (current : Line) : Option Line :=
  match tree with
  | .null => some current
  | .str text => some text
  | _ => none

def readStruct {α : Type} (set : α → Line × Tree → Option α) (tree : Tree) (current : α) :
    Option α :=
  match tree with
  | .null => some current
  | .dict fields => fields.foldlM set current
  | _ => none

/-- What every field keeps, a list of them keeps. -/
theorem foldlM_keeps {α β : Type} {holds : α → Prop} {set : α → β → Option α}
    (keeps : ∀ value field next, holds value → set value field = some next → holds next)
    {fields : List β} {current last : α} (start : holds current)
    (read : fields.foldlM set current = some last) : holds last := by
  induction fields generalizing current with
  | nil =>
      cases read
      exact start
  | cons field rest induction =>
      rw [List.foldlM_cons, Option.bind_eq_bind, Option.bind_eq_some_iff] at read
      have ⟨next, own, later⟩ := read
      exact induction (keeps current field next start own) later

theorem readStruct_keeps {α : Type} {holds : α → Prop} {set : α → Line × Tree → Option α}
    (keeps : ∀ value field next, holds value → set value field = some next → holds next)
    {tree : Tree} {current last : α} (start : holds current)
    (read : readStruct set tree current = some last) : holds last := by
  cases tree with
  | null =>
      cases read
      exact start
  | dict fields => exact foldlM_keeps keeps start read
  | _ => cases read

def Node.readStruct {α : Type} (set : α → Line × Node → Option α) (node : Node) (current : α) :
    Option α :=
  match node.tree with
  | .null => some current
  | .dict _ => node.fields.foldlM set current
  | _ => none

/-- `json.Unmarshal` into a slice, none where it fails. -/
def unmarshalSlice {α : Type} (read : Node → Option α) (text : Line) : Option (List α) := do
  let node ← parseNode text
  match node.tree with
  | .null => some []
  | .list _ => node.items.mapM read
  | _ => none

/-- Where no field needs its text, a node is read as its value is. -/
theorem Node.Sound.readStruct {α : Type} {node : Node} (sound : node.Sound)
    (set : α → Line × Tree → Option α) (current : α) :
    node.readStruct (fun value field => set value (field.1, field.2.tree)) current =
      GoJson.readStruct set node.tree current := by
  rw [Node.readStruct, GoJson.readStruct.eq_def]
  cases shape : node.tree with
  | dict trees =>
      simp only
      rw [← (sound.fields shape).1, List.foldlM_map]
  | _ => rfl

end Homelab.GoJson
