import Homelab.NtfyBridge.Bridge

/-! # The title in a header

When the title of a notification arrives as it was.
-/

namespace Homelab.NtfyBridge

open Text
open Autodeploy.Subcommand (PyChar PyStr literal)

/-! ## Texts -/

theorem scalars_map (chars : Line) : scalars (chars.map .scalar) = some chars := by
  induction chars with
  | nil => rfl
  | cons char rest induction => rw [List.map_cons, scalars, induction, Option.map_some]

theorem scalars_eq_some {text : PyStr} {chars : Line} :
    scalars text = some chars ↔ text = chars.map .scalar := by
  constructor
  · intro read
    induction text generalizing chars with
    | nil =>
        cases read
        rfl
    | cons first rest induction =>
        cases first with
        | scalar char =>
            rcases Option.map_eq_some_iff.mp read with ⟨more, equal, same⟩
            cases same
            rw [induction equal, List.map_cons]
        | half code => cases read
  · intro same
    rw [same, scalars_map]

theorem latin1_eq_some {text : PyStr} {chars : Line} :
    latin1 text = some chars ↔ scalars text = some chars ∧ Base64.Bytes chars := by
  rw [latin1]
  cases scalars text with
  | none => simp
  | some own =>
      simp only [Option.some.injEq]
      split
      · next whole =>
          constructor
          · intro same
            cases same
            exact ⟨rfl, whole⟩
          · intro both
            rw [both.1]
      · next other =>
          constructor
          · intro impossible
            cases impossible
          · intro both
            rw [both.1] at other
            exact absurd both.2 other

/-- The value of a text outside Latin-1 is an encoded word. -/
theorem headerSafe_word {chars : Line} (other : ¬Base64.Bytes chars) :
    headerSafe (chars.map .scalar) = .ok ((EncodedWord.ofText chars).map .scalar) := by
  have outside : latin1 (chars.map .scalar) = none := by
    rw [latin1, scalars_map]
    exact if_neg other
  rw [headerSafe, outside]
  simp only [utf8, scalars_map]
  simp [EncodedWord.ofText, bind, Except.bind, literal]

theorem headerSafe_latin1 {chars : Line} (own : Base64.Bytes chars) :
    headerSafe (chars.map .scalar) = .ok (chars.map .scalar) := by
  have inside : latin1 (chars.map .scalar) = some chars :=
    latin1_eq_some.mpr ⟨scalars_map chars, own⟩
  rw [headerSafe, inside]

theorem headerSafe_half {title : PyStr} (lone : scalars title = none) :
    headerSafe title = .error .unicodeEncode := by
  rw [headerSafe, latin1, lone]
  simp only [utf8, lone]
  rfl

theorem ofText_ascii (chars : Line) :
    ∀ char ∈ EncodedWord.ofText chars, 32 < char.toNat ∧ char.toNat < 127 := by
  intro char member
  rw [EncodedWord.ofText, List.mem_append, List.mem_append] at member
  rcases member with (member | member) | member
  · revert char
    decide
  · exact (Base64.encode_letters (Utf8.bytes_encode chars) char member).ascii
  · revert char
    decide

/-! ## Headers that are taken -/

theorem illegal_single {bytes : Line} (single : '\n' ∉ bytes) (unreturned : '\r' ∉ bytes) :
    illegal bytes = false := by
  induction bytes with
  | nil => rfl
  | cons char rest induction =>
      rw [List.mem_cons, not_or] at single unreturned
      rw [illegal, induction single.2 unreturned.2]
      simp [Ne.symm single.1, Ne.symm unreturned.1]

/-- The value is Latin-1 and no line ends in it: those bytes are the header. -/
structure Wire (value : PyStr) (bytes : Line) : Prop where
  latin1 : latin1 value = some bytes
  single : '\n' ∉ bytes
  unreturned : '\r' ∉ bytes

theorem Wire.takes {value : PyStr} {bytes : Line} (wire : Wire value bytes) :
    takesHeader value = true := by
  rw [takesHeader, wire.latin1]
  simp [illegal_single wire.single wire.unreturned]

theorem wire_ofText (chars : Line) :
    Wire ((EncodedWord.ofText chars).map .scalar) (EncodedWord.ofText chars) where
  latin1 := latin1_eq_some.mpr ⟨scalars_map _, fun char member =>
    lt_trans (ofText_ascii chars char member).2 (by decide)⟩
  single member := absurd (ofText_ascii chars _ member) (by decide)
  unreturned member := absurd (ofText_ascii chars _ member) (by decide)

/-! ## The law -/

/-- The title goes through: the value is a legal header, whoever decodes it has the title
again, and the outcome of sending is the network's alone. -/
structure Arrives (title : PyStr) (value : PyStr) : Prop where
  returned : headerSafe title = .ok value
  read : ∃ bytes, Wire value bytes ∧ (EncodedWord.decode bytes).map .scalar = title
  sent : ∀ (answers : Nat → Answer) (body priority tags : PyStr) (data : Line),
    utf8 body = .ok data → takesHeader priority = true → takesHeader tags = true →
      sendNtfy answers (.str title) body priority tags =
        .ok (⟨data, value, priority, tags⟩, attempts answers 0 delays)

/-- No half of a surrogate pair is in the title. In a Latin-1 title no line ends, and nothing in
it reads as an encoded word. -/
def Sendable (title : PyStr) : Prop :=
  ∃ chars, scalars title = some chars ∧
    (Base64.Bytes chars → '\n' ∉ chars ∧ '\r' ∉ chars ∧ ¬EncodedWord.Occurs chars)

theorem takesHeader_yes : takesHeader (literal "yes") = true := by decide

theorem sendNtfy_taken {title value : PyStr} (returned : headerSafe title = .ok value)
    (taken : takesHeader value = true) {body priority tags : PyStr} {data : Line}
    (encoded : utf8 body = .ok data) (plain : takesHeader priority = true)
    (tagged : takesHeader tags = true) (answers : Nat → Answer) :
    sendNtfy answers (.str title) body priority tags =
      .ok (⟨data, value, priority, tags⟩, attempts answers 0 delays) := by
  have through : ∀ answer, urlopen ⟨data, value, priority, tags⟩ answer = answer := by
    intro answer
    rw [urlopen, if_pos]
    simp [Request.headers, taken, plain, tagged, takesHeader_yes]
  rw [sendNtfy, encoded]
  simp only [textOf, bind, Except.bind, returned, through]

theorem arrives_of_wire {title value : PyStr} {bytes : Line}
    (returned : headerSafe title = .ok value) (wire : Wire value bytes)
    (same : (EncodedWord.decode bytes).map .scalar = title) : Arrives title value where
  returned := returned
  read := ⟨bytes, wire, same⟩
  sent answers _ _ _ _ encoded plain tagged :=
    sendNtfy_taken returned wire.takes encoded plain tagged answers

theorem Sendable.arrives {title : PyStr} (sendable : Sendable title) :
    ∃ value, Arrives title value := by
  rcases sendable with ⟨chars, spelled, plain⟩
  rw [scalars_eq_some] at spelled
  subst spelled
  by_cases own : Base64.Bytes chars
  · rcases plain own with ⟨single, unreturned, wordless⟩
    have wire : Wire (chars.map .scalar) chars :=
      ⟨latin1_eq_some.mpr ⟨scalars_map chars, own⟩, single, unreturned⟩
    have same := EncodedWord.decode_eq_self_iff.mpr wordless
    exact ⟨_, arrives_of_wire (headerSafe_latin1 own) wire (by rw [same])⟩
  · exact ⟨_, arrives_of_wire (headerSafe_word own) (wire_ofText chars)
      (by rw [EncodedWord.decode_ofText])⟩

theorem scalar_injective : Function.Injective (PyChar.scalar) := by
  intro first second same
  cases same
  rfl

theorem Arrives.sendable {title value : PyStr} (arrives : Arrives title value) :
    Sendable title := by
  rcases arrives.read with ⟨bytes, wire, same⟩
  have spelled : scalars title = some (EncodedWord.decode bytes) := by
    rw [← same, scalars_map]
  refine ⟨_, spelled, fun own => ?_⟩
  have title_eq := scalars_eq_some.mp spelled
  have returned := arrives.returned
  rw [title_eq, headerSafe_latin1 own] at returned
  -- A Latin-1 title is its own header, so that the bytes are the title.
  have latin := wire.latin1
  rw [← Except.ok.inj returned, latin1_eq_some, scalars_map] at latin
  have self : EncodedWord.decode bytes = bytes := Option.some.inj latin.1
  rw [self]
  exact ⟨wire.single, wire.unreturned, EncodedWord.decode_eq_self_iff.mp self⟩

/-- A title arrives exactly where it is sendable, and then no other such title has its value. -/
theorem header_law (title : PyStr) :
    ((∃ value, Arrives title value) ↔ Sendable title) ∧
      (Sendable title → ∀ other, Sendable other →
        headerSafe other = headerSafe title → other = title) := by
  constructor
  · constructor
    · intro arrival
      rcases arrival with ⟨value, arrives⟩
      exact arrives.sendable
    · exact Sendable.arrives
  · intro sendable other sound equal
    rcases sendable.arrives with ⟨value, arrives⟩
    rcases sound.arrives with ⟨own, also⟩
    rw [arrives.returned, also.returned] at equal
    cases equal
    rcases arrives.read with ⟨bytes, wire, same⟩
    rcases also.read with ⟨others, wires, sames⟩
    have bytes_eq := wire.latin1.symm.trans wires.latin1
    cases bytes_eq
    rw [← same, ← sames]

theorem not_sendable {chars : Line} (own : Base64.Bytes chars)
    (wrong : '\n' ∈ chars ∨ EncodedWord.Occurs chars) : ¬Sendable (chars.map .scalar) := by
  intro sendable
  rcases sendable with ⟨others, spelled, plain⟩
  rw [scalars_map] at spelled
  cases spelled
  rcases wrong with member | occurs
  · exact (plain own).1 member
  · exact (plain own).2.2 occurs

/-- Half of a surrogate pair raises, a title of two lines is refused at every attempt, and an
encoded word is read as what it stands for, which has the same value. -/
theorem header_law_fails :
    headerSafe [.half 0xD83D] = .error .unicodeEncode ∧
      (∀ value, ¬Arrives [.half 0xD83D] value) ∧
      (∀ value, ¬Arrives (literal "disk\nfull") value) ∧
      (∀ value, ¬Arrives (literal "=?UTF-8?B?4oCU?=") value) ∧
      headerSafe (literal "=?UTF-8?B?4oCU?=") = headerSafe (literal "—") ∧
      (sendNtfy (fun _ => .status 200) (.str (literal "disk\nfull")) [] (literal "high")
          (literal "warning")).map (fun sent => sent.2) =
        .ok ⟨0, 6, [2, 4, 8, 16, 32], true⟩ := by
  refine ⟨by decide, fun value arrives => ?_, fun value arrives => ?_, fun value arrives => ?_,
    by decide +kernel, by decide +kernel⟩
  · rcases arrives.sendable with ⟨chars, spelled, _⟩
    cases spelled
  · exact not_sendable (by decide) (.inl (by decide)) arrives.sendable
  · exact not_sendable (by decide) (.inr (by decide +kernel)) arrives.sendable

end Homelab.NtfyBridge
