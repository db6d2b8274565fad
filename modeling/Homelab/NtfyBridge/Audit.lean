import Homelab.Foundation.Decimal
import Homelab.Foundation.Logfmt
import Homelab.NtfyBridge.Header

/-! # The audit line of an alert

What the fields of a line of the audit log say, and when they say what was written.
-/

namespace Homelab.NtfyBridge

open Text
open Autodeploy.Subcommand (PyChar PyStr literal)

structure Record where
  status : Value
  alertname : Value
  severity : Value
  service : Value
  http : Value
deriving DecidableEq

/-- A field that is read, and `None` without it. -/
def spell : Option Line → Value
  | none => .null
  | some chars => .str (chars.map .scalar)

@[simp] theorem spell_none : spell none = .null := rfl

@[simp] theorem spell_some (chars : Line) : spell (some chars) = .str (chars.map .scalar) := rfl

def record (line : Line) : Record :=
  ⟨spell (Logfmt.read "firing".toList line), spell (Logfmt.read "alertname".toList line),
    spell (Logfmt.read "severity".toList line), spell (Logfmt.read "service".toList line),
    spell (Logfmt.read "http".toList line)⟩

/-- `None`, or a text that a field of a line can hold. -/
def Value.Plain (value : Value) : Prop :=
  ∃ own, value = spell own ∧ ∀ chars ∈ own, ' ' ∉ chars ∧ '\n' ∉ chars

/-- What is read from one line is plain. -/
theorem plain_read {name line : Line} (single : '\n' ∉ line) :
    (spell (Logfmt.read name line)).Plain := by
  refine ⟨_, rfl, fun chars found => ?_⟩
  have clear := Logfmt.read_clear found
  exact ⟨clear.1, fun breaks => single (clear.2 _ breaks)⟩

theorem plain_code (code : Nat) :
    ∀ char ∈ (toString code).toList, char ≠ ' ' ∧ char ≠ '\n' ∧ char ≠ '=' := by
  intro char member
  rw [Json.toList_toString] at member
  have digit := Json.toDigits_isDigit code member
  refine ⟨?_, ?_, ?_⟩ <;>
  · intro same
    rw [same] at digit
    exact absurd digit (by decide)

/-! ## The line -/

/-- The line without its end, for fields that are texts or left out. -/
def reported (clock : Line) (status : String) (fields : List (Line × Option Line)) : Line :=
  clock ++ ' ' :: ("script=vmalert".toList ++ ' ' :: ("step=alert".toList ++ ' ' ::
    ("status=".toList ++ status.toList ++ ' ' ::
      [' '].intercalate ((Logfmt.present fields).map Logfmt.field))))

theorem map_intercalate {α β : Type} (change : α → β) (separator : List α)
    (parts : List (List α)) :
    (separator.intercalate parts).map change =
      (separator.map change).intercalate (parts.map (List.map change)) := by
  induction parts with
  | nil => rfl
  | cons part rest induction =>
      cases rest with
      | nil => simp
      | cons next more =>
          rw [List.intercalate_cons_cons, List.map_append, List.map_append, induction,
            List.map_cons, List.map_cons, List.map_cons, List.intercalate_cons_cons]

theorem not_mem_intercalate {α : Type} {char : α} {separator : List α} {parts : List (List α)}
    (between : char ∉ separator) (own : ∀ part ∈ parts, char ∉ part) :
    char ∉ separator.intercalate parts := by
  induction parts with
  | nil => simp
  | cons part rest induction =>
      have first := own part List.mem_cons_self
      have later := induction fun other member => own other (List.mem_cons_of_mem _ member)
      cases rest with
      | nil => rwa [List.intercalate_singleton]
      | cons next more =>
          rw [List.intercalate_cons_cons]
          simp only [List.mem_append, not_or]
          exact ⟨⟨first, between⟩, later⟩

def named (fields : List (String × Option Line)) : List (Line × Option Line) :=
  fields.map fun field => (field.1.toList, field.2)

theorem logfmt_spell (fields : List (String × Option Line)) :
    logfmt (fields.map fun field => (field.1, spell field.2)) =
      ([' '].intercalate ((Logfmt.present (named fields)).map Logfmt.field)).map .scalar := by
  have parts : (fields.map fun field => (field.1, spell field.2)).filterMap fieldText =
        ((Logfmt.present (named fields)).map Logfmt.field).map (List.map .scalar) := by
    induction fields with
    | nil => rfl
    | cons field rest induction =>
        rcases field with ⟨name, own⟩
        rw [Logfmt.present, named] at induction ⊢
        rw [List.map_cons, List.map_cons, List.filterMap_cons, List.filterMap_cons]
        cases own with
        | none => exact induction
        | some chars =>
            simp only [fieldText, spell_some, Option.map_some]
            rw [induction, List.map_cons, List.map_cons]
            simp [Logfmt.field, literal]
  rw [logfmt, parts, map_intercalate]
  rfl

theorem auditLine_spell (clock : Line) (status : String) (fields : List (String × Option Line)) :
    auditLine clock status (fields.map fun field => (field.1, spell field.2)) =
      (reported clock status (named fields) ++ ['\n']).map .scalar := by
  rw [auditLine, logfmt_spell, reported]
  simp [literal]

/-! ## Reading it -/

def lineFields (alertname severity service status : Option Line) (code : Nat) :
    List (String × Option Line) :=
  [("alertname", alertname), ("severity", severity), ("service", service), ("firing", status),
    ("http", some (toString code).toList)]

def Unmarked (name : Line) : Prop := '=' ∉ name ∧ ' ' ∉ name ∧ '\n' ∉ name

instance (name : Line) : Decidable (Unmarked name) := inferInstanceAs (Decidable (_ ∧ _ ∧ _))

/-- No mark of the line's own is in a name or a value. -/
def Clear (fields : List (Line × Option Line)) : Prop :=
  ∀ field ∈ fields, Unmarked field.1 ∧ ∀ chars ∈ field.2, ' ' ∉ chars ∧ '\n' ∉ chars

theorem Clear.cons {name : Line} {own : Option Line} {fields : List (Line × Option Line)}
    (unmarked : Unmarked name) (value : ∀ chars ∈ own, ' ' ∉ chars ∧ '\n' ∉ chars)
    (clear : Clear fields) : Clear ((name, own) :: fields) := by
  intro field member
  rcases List.mem_cons.mp member with same | later
  · rw [same]
    exact ⟨unmarked, value⟩
  · exact clear field later

theorem Clear.present {fields : List (Line × Option Line)} (clear : Clear fields)
    {entry : Line × Line} (member : entry ∈ Logfmt.present fields) :
    Logfmt.Plain entry ∧ '\n' ∉ Logfmt.field entry := by
  rcases List.mem_filterMap.mp member with ⟨field, inside, made⟩
  rcases Option.map_eq_some_iff.mp made with ⟨chars, held, same⟩
  have own := clear field inside
  have value := own.2 chars held
  rw [← same]
  constructor
  · exact ⟨⟨own.1.1, own.1.2.1⟩, value.1⟩
  · simp [Logfmt.field, own.1.2.2, value.2]

section

variable {clock : Line} (plain : ∀ char ∈ clock, char ≠ ' ' ∧ char ≠ '\n' ∧ char ≠ '=')
  {status : String} (word : status = "ok" ∨ status = "fail")
  {fields : List (Line × Option Line)} (clear : Clear fields)

include plain word clear

theorem pairs_reported :
    Logfmt.pairs (reported clock status fields) =
      [("script".toList, "vmalert".toList), ("step".toList, "alert".toList),
        ("status".toList, status.toList)] ++ Logfmt.present fields := by
  have unnamed : cutAt ['='] clock = none := by
    rw [Option.eq_none_iff_forall_ne_some]
    intro parts cut
    have whole := cutAt_parts cut
    exact (plain '=' (by simp [whole])).2.2 rfl
  rw [reported, Logfmt.pairs_append (fun member => (plain _ member).1 rfl),
    Logfmt.pairs_append (by decide), Logfmt.pairs_append (by decide),
    Logfmt.pairs_append (by rcases word with rfl | rfl <;> decide),
    Logfmt.pairs_fields fun entry member => (clear.present member).1, unnamed]
  rcases word with rfl | rfl <;> rfl

theorem single_reported : '\n' ∉ reported clock status fields := by
  have later : '\n' ∉ [' '].intercalate ((Logfmt.present fields).map Logfmt.field) := by
    apply not_mem_intercalate (by decide)
    intro part member
    rcases List.mem_map.mp member with ⟨entry, inside, same⟩
    rw [← same]
    exact (clear.present inside).2
  have first : '\n' ∉ clock := fun member => (plain _ member).2.1 rfl
  rw [reported]
  rcases word with rfl | rfl <;>
  · simp only [List.mem_append, List.mem_cons, not_or]
    exact ⟨first, by decide, by decide, by decide, by decide, by decide, ⟨by decide, by decide⟩,
      by decide, later⟩

theorem read_reported (distinct : (fields.map Prod.fst).Nodup) {name : Line}
    {value : Option Line} (member : (name, value) ∈ fields)
    (late : name ∉ ["script".toList, "step".toList, "status".toList]) :
    Logfmt.read name (reported clock status fields) = value := by
  have front : [("script".toList, "vmalert".toList), ("step".toList, "alert".toList),
      ("status".toList, status.toList)].lookup name = none := by
    rw [List.lookup_eq_none_iff]
    intro entry inside
    apply bne_iff_ne.mpr
    intro same
    apply late
    rw [same]
    exact List.mem_map.mpr ⟨entry, inside, rfl⟩
  rw [Logfmt.read, pairs_reported plain word clear, List.lookup_append, front,
    Logfmt.lookup_present distinct member]
  rfl

end

theorem clear_lineFields {alertname severity service status : Option Line} (code : Nat)
    (plain : ∀ own ∈ [alertname, severity, service, status], ∀ chars ∈ own,
      ' ' ∉ chars ∧ '\n' ∉ chars) :
    Clear (named (lineFields alertname severity service status code)) := by
  have digits : ' ' ∉ (toString code).toList ∧ '\n' ∉ (toString code).toList :=
    ⟨fun member => (plain_code code _ member).1 rfl,
      fun member => (plain_code code _ member).2.1 rfl⟩
  have held : ∀ chars ∈ some (toString code).toList, ' ' ∉ chars ∧ '\n' ∉ chars := by
    intro chars same
    cases same
    exact digits
  rw [named, lineFields]
  simp only [List.map_cons, List.map_nil]
  exact .cons (by decide) (plain _ (by simp)) (.cons (by decide) (plain _ (by simp))
    (.cons (by decide) (plain _ (by simp)) (.cons (by decide) (plain _ (by simp))
      (.cons (by decide) held (by intro field member; cases member)))))

/-- The line says what the alert is. -/
theorem record_reported {clock : Line}
    (plain : ∀ char ∈ clock, char ≠ ' ' ∧ char ≠ '\n' ∧ char ≠ '=')
    {word : String} (known : word = "ok" ∨ word = "fail")
    {alertname severity service status : Option Line} {code : Nat}
    (clear : Clear (named (lineFields alertname severity service status code))) :
    record (reported clock word (named (lineFields alertname severity service status code))) =
      ⟨spell status, spell alertname, spell severity, spell service,
        .str (literal (toString code))⟩ := by
  have distinct : ((named (lineFields alertname severity service status code)).map
      Prod.fst).Nodup := by
    rw [named, lineFields]
    simp only [List.map_cons, List.map_nil]
    decide
  have inside : ∀ (name : String) (own : Option Line),
      (name, own) ∈ lineFields alertname severity service status code →
        (name.toList, own) ∈ named (lineFields alertname severity service status code) :=
    fun name own member => List.mem_map.mpr ⟨(name, own), member, rfl⟩
  have firing := read_reported plain known clear distinct
    (inside "firing" status (by simp [lineFields])) (by decide)
  have alert := read_reported plain known clear distinct
    (inside "alertname" alertname (by simp [lineFields])) (by decide)
  have level := read_reported plain known clear distinct
    (inside "severity" severity (by simp [lineFields])) (by decide)
  have server := read_reported plain known clear distinct
    (inside "service" service (by simp [lineFields])) (by decide)
  have http := read_reported plain known clear distinct
    (inside "http" (some (toString code).toList) (by simp [lineFields])) (by decide)
  rw [record, firing, alert, level, server, http]
  rfl

end Homelab.NtfyBridge
