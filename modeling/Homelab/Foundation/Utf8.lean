import Homelab.Foundation.Lines

/-! # Files of bytes that are read as text

`open(path).read()`: the bytes, one to a character, are UTF-8, and every line ends with a
newline.
-/

namespace Homelab.Utf8

open Text

/-- A character of which some bytes are read: how many come after the next one, the number
they make so far, and between what the next one lies. -/
structure Pending where
  left : Nat
  code : Nat
  low : Nat
  high : Nat

/-- The first byte of a character that takes several. -/
def lead (byte : Nat) : Option Pending :=
  if 0xC2 ≤ byte ∧ byte ≤ 0xDF then some ⟨0, byte - 0xC0, 0x80, 0xBF⟩
  else if byte = 0xE0 then some ⟨1, 0, 0xA0, 0xBF⟩
  else if byte = 0xED then some ⟨1, 0x0D, 0x80, 0x9F⟩
  else if 0xE1 ≤ byte ∧ byte ≤ 0xEF then some ⟨1, byte - 0xE0, 0x80, 0xBF⟩
  else if byte = 0xF0 then some ⟨2, 0, 0x90, 0xBF⟩
  else if 0xF1 ≤ byte ∧ byte ≤ 0xF3 then some ⟨2, byte - 0xF0, 0x80, 0xBF⟩
  else if byte = 0xF4 then some ⟨2, 4, 0x80, 0x8F⟩
  else none

def step (pending : Option Pending) (byte : Char) : Option (Option Pending × Line) :=
  match pending with
  | none =>
      if byte.toNat < 128 then some (none, [byte])
      else (lead byte.toNat).map fun pending => (some pending, [])
  | some pending =>
      if pending.low ≤ byte.toNat ∧ byte.toNat ≤ pending.high then
        let code := pending.code * 64 + (byte.toNat - 128)
        match pending.left with
        | 0 => some (none, [.ofNat code])
        | left + 1 => some (some ⟨left, code, 0x80, 0xBF⟩, [])
      else none

def run (pending : Option Pending) : Line → Option (Option Pending × Line)
  | [] => some (pending, [])
  | byte :: rest =>
      match step pending byte with
      | none => none
      | some (pending, text) =>
          (run pending rest).map fun (pending, more) => (pending, text ++ more)

/-- `bytes.decode("utf-8")`. -/
def decode (bytes : Line) : Option Line :=
  match run none bytes with
  | some (none, text) => some text
  | _ => none

/-- Every line ends with a newline; `returned` says that a carriage return comes right
before. -/
def universal (returned : Bool) : Line → Line
  | [] => []
  | char :: rest =>
      if char = '\r' then '\n' :: universal true rest
      else if char = '\n' ∧ returned then universal false rest
      else char :: universal false rest

/-- `open(path).read()`, where the bytes are text. -/
def opened (bytes : Line) : Option Line := (decode bytes).map (universal false)

example : opened [.ofNat 0xC5, .ofNat 0x9F, '\r', '\n'] = some ['ş', '\n'] := by decide

/-! ## Parts -/

theorem run_append (pending : Option Pending) (first rest : Line) :
    run pending (first ++ rest) =
      (run pending first).bind fun (pending, text) =>
        (run pending rest).map fun (pending, more) => (pending, text ++ more) := by
  induction first generalizing pending with
  | nil => cases done : run pending rest <;> simp [run, done]
  | cons byte more induction =>
      rw [List.cons_append, run, run]
      cases step pending byte with
      | none => rfl
      | some stepped =>
          simp only
          rw [induction]
          cases run stepped.1 more with
          | none => rfl
          | some done =>
              simp only [Option.bind_some, Option.map_some]
              cases run done.1 rest <;> simp

theorem decode_eq_some {bytes text : Line} :
    decode bytes = some text ↔ run none bytes = some (none, text) := by
  rw [decode]
  split
  · next text' equal => simp [equal]
  · next other =>
      constructor
      · intro impossible
        cases impossible
      · intro equal
        exact absurd equal (other text)

theorem decode_append {first text : Line} (decoded : decode first = some text) (rest : Line) :
    decode (first ++ rest) = (decode rest).map (text ++ ·) := by
  rw [decode, run_append, decode_eq_some.mp decoded, decode]
  simp only [Option.bind_some]
  cases run none rest with
  | none => rfl
  | some done =>
      rcases done with ⟨pending, more⟩
      cases pending <;> rfl

def Ascii (bytes : Line) : Prop := ∀ byte ∈ bytes, byte.toNat < 128

instance (bytes : Line) : Decidable (Ascii bytes) := inferInstanceAs (Decidable (∀ _ ∈ _, _))

theorem Ascii.append {first rest : Line} (left : Ascii first) (right : Ascii rest) :
    Ascii (first ++ rest) := by
  intro byte member
  rcases List.mem_append.mp member with member | member
  · exact left byte member
  · exact right byte member

theorem decode_ascii {bytes : Line} (ascii : Ascii bytes) : decode bytes = some bytes := by
  rw [decode_eq_some]
  induction bytes with
  | nil => rfl
  | cons byte rest induction =>
      have small := ascii byte List.mem_cons_self
      rw [run, step, if_pos small]
      simp only
      rw [induction fun other member => ascii other (List.mem_cons_of_mem _ member)]
      rfl

/-! ## Where the bytes are no text -/

/-- The bytes that are still to come are no ASCII, and the character is none. -/
structure Pending.Wide (pending : Pending) : Prop where
  low : 128 ≤ pending.low
  next : 130 ≤ pending.code * 64 + pending.low
  last : pending.left = 0 → 2 ≤ pending.code

theorem lead_wide {byte : Nat} {pending : Pending} (found : lead byte = some pending) :
    pending.Wide := by
  rw [lead] at found
  split at found
  · cases found
    constructor <;> simp only <;> omega
  split at found
  · cases found
    constructor <;> simp
  split at found
  · cases found
    constructor <;> simp
  split at found
  · cases found
    constructor <;> simp only <;> omega
  split at found
  · cases found
    constructor <;> simp
  split at found
  · cases found
    constructor <;> simp only <;> omega
  split at found
  · cases found
    constructor <;> simp
  · cases found

theorem step_wide {pending next : Option Pending} {byte : Char} {text : Line}
    (wide : ∀ own ∈ pending, own.Wide) (stepped : step pending byte = some (next, text)) :
    ∀ own ∈ next, own.Wide := by
  cases pending with
  | none =>
      rw [step] at stepped
      split at stepped
      · cases stepped
        simp
      · rcases Option.map_eq_some_iff.mp stepped with ⟨found, equal, same⟩
        cases same
        intro own member
        cases Option.mem_some.mp member
        exact lead_wide equal
  | some pending =>
      have wide := wide pending rfl
      rw [step] at stepped
      split at stepped
      · next bounded =>
          have next := wide.next
          split at stepped
          · cases stepped
            simp
          · cases stepped
            intro own member
            cases Option.mem_some.mp member
            constructor <;> simp only <;> omega
      · cases stepped

theorem run_wide {pending next : Option Pending} {bytes text : Line}
    (wide : ∀ own ∈ pending, own.Wide) (done : run pending bytes = some (next, text)) :
    ∀ own ∈ next, own.Wide := by
  induction bytes generalizing pending text with
  | nil =>
      cases done
      exact wide
  | cons byte rest induction =>
      rw [run] at done
      split at done
      · cases done
      · next stepped =>
          rcases Option.map_eq_some_iff.mp done with ⟨more, ran, same⟩
          cases same
          exact induction (step_wide wide stepped) ran

/-- What is no text before an ASCII byte is none with it. -/
theorem decode_ascii_after {first : Line} (wrong : decode first = none) {byte : Char}
    (small : byte.toNat < 128) (rest : Line) : decode (first ++ byte :: rest) = none := by
  rw [decode, run_append]
  cases ran : run none first with
  | none => rfl
  | some done =>
      rcases done with ⟨pending, text⟩
      cases pending with
      | none =>
          rw [decode_eq_some.mpr ran] at wrong
          cases wrong
      | some pending =>
          have wide := run_wide (by simp) ran pending rfl
          have low := wide.low
          simp only [Option.bind_some, run, step]
          rw [if_neg (by omega)]
          rfl

/-! ## Line ends -/

theorem universal_cons {char : Char} (other : char ≠ '\r') (rest : Line) :
    universal false (char :: rest) = char :: universal false rest := by
  simp [universal, other]

theorem universal_append {first : Line} (single : '\r' ∉ first) (rest : Line) :
    universal false (first ++ rest) = first ++ universal false rest := by
  induction first with
  | nil => rfl
  | cons char more induction =>
      simp only [List.mem_cons, not_or] at single
      rw [List.cons_append, universal_cons (Ne.symm single.1), induction single.2]
      rfl

theorem universal_self {text : Line} (single : '\r' ∉ text) : universal false text = text := by
  have whole := universal_append single []
  rwa [List.append_nil, universal, List.append_nil] at whole

/-- What follows starts no line end. -/
theorem universal_split (returned : Bool) (first : Line) {char : Char} (other : char ≠ '\n')
    (rest : Line) :
    universal returned (first ++ char :: rest) =
      universal returned first ++ universal false (char :: rest) := by
  induction first generalizing returned with
  | nil => simp [universal, other]
  | cons own more induction =>
      rw [List.cons_append, universal, universal]
      split
      · rw [induction]
        rfl
      split
      · exact induction false
      · rw [induction]
        rfl

theorem mem_universal {text : Line} (returns : '\r' ∈ text) (returned : Bool) :
    '\n' ∈ universal returned text := by
  induction text generalizing returned with
  | nil => cases returns
  | cons own more induction =>
      rw [universal]
      by_cases same : own = '\r'
      · simp [same]
      · rw [if_neg same]
        have later := List.mem_of_ne_of_mem (Ne.symm same) returns
        split
        · exact induction later false
        · exact List.mem_cons_of_mem _ (induction later false)

/-! ## Reading -/

theorem opened_append {first text : Line} (decoded : decode first = some text)
    (single : '\r' ∉ text) (rest : Line) :
    opened (first ++ rest) = (opened rest).map (text ++ ·) := by
  rw [opened, decode_append decoded, opened, Option.map_map, Option.map_map]
  congr 1
  funext more
  exact universal_append single more

theorem opened_ascii {bytes : Line} (ascii : Ascii bytes) (single : '\r' ∉ bytes) :
    opened bytes = some bytes := by
  rw [opened, decode_ascii ascii, Option.map_some, universal_self single]

/-- A part that is followed by an ASCII byte is read on its own. -/
theorem opened_split (first : Line) {char : Char} (small : char.toNat < 128)
    (other : char ≠ '\n') (rest : Line) :
    opened (first ++ char :: rest) =
      (opened first).bind fun text => (opened (char :: rest)).map (text ++ ·) := by
  cases decoded : decode first with
  | none =>
      rw [opened, decode_ascii_after decoded small, opened, decoded]
      rfl
  | some text =>
      rw [opened, decode_append decoded]
      simp only [opened, decoded, Option.map_some, Option.bind_some, Option.map_map]
      have ascii : decode (char :: rest) = (decode rest).map ([char] ++ ·) :=
        decode_append (decode_ascii (fun byte member => by
          rw [List.mem_singleton.mp member]
          exact small)) rest
      rw [ascii, Option.map_map, Option.map_map]
      congr 1
      funext more
      exact universal_split false text other more

theorem opened_mark {mark : Char} (small : mark.toNat < 128) (other : mark ≠ '\r') (rest : Line) :
    opened (mark :: rest) = (opened rest).map (mark :: ·) := by
  have own : decode [mark] = some [mark] := decode_ascii fun byte member => by
    rw [List.mem_singleton.mp member]
    exact small
  exact opened_append own (by simpa using Ne.symm other) rest

/-- Parts with an ASCII separator between them are read on their own. -/
theorem opened_intercalate {α : Type} {separator mark : Char}
    (between : separator.toNat < 128 ∧ separator ≠ '\n' ∧ separator ≠ '\r')
    (after : mark.toNat < 128 ∧ mark ≠ '\n') {items : List α} {part text : α → Line}
    (own : ∀ item ∈ items, opened (part item) = some (text item)) (rest : Line) :
    opened ([separator].intercalate (items.map part) ++ mark :: rest) =
      (opened (mark :: rest)).map ([separator].intercalate (items.map text) ++ ·) := by
  induction items with
  | nil => simp
  | cons item others induction =>
      have here := own item List.mem_cons_self
      have later := induction fun other member => own other (List.mem_cons_of_mem _ member)
      cases others with
      | nil =>
          simp only [List.map_cons, List.map_nil, List.intercalate_singleton]
          rw [opened_split _ after.1 after.2, here]
          rfl
      | cons next more =>
          simp only [List.map_cons, List.intercalate_cons_cons, List.append_assoc,
            List.cons_append, List.nil_append] at later ⊢
          rw [opened_split _ between.1 between.2.1, here, Option.bind_some,
            opened_mark between.1 between.2.2, later]
          simp only [Option.map_map]
          congr 1

/-- A part that cannot be read spoils them all. -/
theorem opened_intercalate_none {α : Type} {separator mark : Char}
    (between : separator.toNat < 128 ∧ separator ≠ '\n' ∧ separator ≠ '\r')
    (after : mark.toNat < 128 ∧ mark ≠ '\n') {items : List α} {part : α → Line}
    (wrong : ∃ item ∈ items, opened (part item) = none) (rest : Line) :
    opened ([separator].intercalate (items.map part) ++ mark :: rest) = none := by
  induction items with
  | nil => simp at wrong
  | cons item others induction =>
      cases own : opened (part item) with
      | none =>
          cases others with
          | nil =>
              simp only [List.map_cons, List.map_nil, List.intercalate_singleton]
              rw [opened_split _ after.1 after.2, own]
              rfl
          | cons next more =>
              simp only [List.map_cons, List.intercalate_cons_cons, List.append_assoc,
                List.cons_append, List.nil_append]
              rw [opened_split _ between.1 between.2.1, own]
              rfl
      | some text =>
          have later : ∃ item ∈ others, opened (part item) = none := by
            rcases wrong with ⟨other, member, nothing⟩
            rcases List.mem_cons.mp member with same | member
            · rw [same, own] at nothing
              cases nothing
            · exact ⟨other, member, nothing⟩
          cases others with
          | nil => simp at later
          | cons next more =>
              have none := induction later
              simp only [List.map_cons, List.intercalate_cons_cons, List.append_assoc,
                List.cons_append, List.nil_append] at none ⊢
              rw [opened_split _ between.1 between.2.1, own, Option.bind_some,
                opened_mark between.1 between.2.2, none]
              rfl

/-! ## Writing -/

def encodeChar (char : Char) : Line :=
  let code := char.toNat
  if code < 0x80 then [char]
  else if code < 0x800 then [.ofNat (0xC0 + code / 64), .ofNat (0x80 + code % 64)]
  else if code < 0x10000 then
    [.ofNat (0xE0 + code / 4096), .ofNat (0x80 + code / 64 % 64), .ofNat (0x80 + code % 64)]
  else
    [.ofNat (0xF0 + code / 262144), .ofNat (0x80 + code / 4096 % 64),
      .ofNat (0x80 + code / 64 % 64), .ofNat (0x80 + code % 64)]

/-- `text.encode("utf-8")`. -/
def encode (text : Line) : Line := text.flatMap encodeChar

example : encode ['ş'] = [.ofNat 0xC5, .ofNat 0x9F] := by decide

theorem toNat_byte {code : Nat} (small : code < 256) : (Char.ofNat code).toNat = code := by
  rw [Char.ofNat, dif_pos (.inl (by omega))]
  rfl

/-- No character lies between the two planes of them. -/
theorem valid (char : Char) : char.toNat < 0xD800 ∨ 0xDFFF < char.toNat ∧ char.toNat < 0x110000 :=
  char.valid

theorem bytes_encodeChar (char : Char) : ∀ byte ∈ encodeChar char, byte.toNat < 256 := by
  have small := valid char
  rw [encodeChar]
  intro byte member
  split at member
  · cases List.mem_singleton.mp member
    omega
  split at member
  · simp only [List.mem_cons, List.not_mem_nil, or_false] at member
    rcases member with rfl | rfl
    all_goals rw [toNat_byte (by omega)]; omega
  split at member
  · simp only [List.mem_cons, List.not_mem_nil, or_false] at member
    rcases member with rfl | rfl | rfl
    all_goals rw [toNat_byte (by omega)]; omega
  · simp only [List.mem_cons, List.not_mem_nil, or_false] at member
    rcases member with rfl | rfl | rfl | rfl
    all_goals rw [toNat_byte (by omega)]; omega

theorem bytes_encode (text : Line) : ∀ byte ∈ encode text, byte.toNat < 256 := by
  intro byte member
  rcases List.mem_flatMap.mp member with ⟨char, _, own⟩
  exact bytes_encodeChar char byte own

theorem step_last {done low high code : Nat} (small : code < 256)
    (bounded : low ≤ code ∧ code ≤ high) :
    step (some ⟨0, done, low, high⟩) (.ofNat code) =
      some (none, [.ofNat (done * 64 + (code - 128))]) := by
  simp only [step, toNat_byte small]
  rw [if_pos bounded]

theorem step_more {left done low high code : Nat} (small : code < 256)
    (bounded : low ≤ code ∧ code ≤ high) :
    step (some ⟨left + 1, done, low, high⟩) (.ofNat code) =
      some (some ⟨left, done * 64 + (code - 128), 0x80, 0xBF⟩, []) := by
  simp only [step, toNat_byte small]
  rw [if_pos bounded]

theorem step_lead {code : Nat} (small : code < 256) (large : 128 ≤ code) :
    step none (.ofNat code) = (lead code).map fun pending => (some pending, []) := by
  rw [step, toNat_byte small, if_neg (by omega)]

/-- The first byte of three leaves its four bits, and keeps out what two bytes would say and
what is no character. -/
theorem lead_three {code : Nat} (large : 0x800 ≤ code) (small : code < 0x10000)
    (whole : code < 0xD800 ∨ 0xDFFF < code) :
    ∃ low high, lead (0xE0 + code / 4096) = some ⟨1, code / 4096, low, high⟩ ∧
      low ≤ 0x80 + code / 64 % 64 ∧ 0x80 + code / 64 % 64 ≤ high := by
  rw [lead, if_neg (by omega)]
  split
  · next least =>
      have none_left : code / 4096 = 0 := by omega
      exact ⟨0xA0, 0xBF, by rw [none_left], by omega, by omega⟩
  split
  · next halves =>
      have thirteen : code / 4096 = 0x0D := by omega
      exact ⟨0x80, 0x9F, by rw [thirteen], by omega, by omega⟩
  · rw [if_pos (by omega)]
    have rest : 0xE0 + code / 4096 - 0xE0 = code / 4096 := by omega
    exact ⟨0x80, 0xBF, by rw [rest], by omega, by omega⟩

theorem lead_four {code : Nat} (large : 0x10000 ≤ code) (small : code < 0x110000) :
    ∃ low high, lead (0xF0 + code / 262144) = some ⟨2, code / 262144, low, high⟩ ∧
      low ≤ 0x80 + code / 4096 % 64 ∧ 0x80 + code / 4096 % 64 ≤ high := by
  rw [lead, if_neg (by omega), if_neg (by omega), if_neg (by omega), if_neg (by omega)]
  split
  · next least =>
      have none_left : code / 262144 = 0 := by omega
      exact ⟨0x90, 0xBF, by rw [none_left], by omega, by omega⟩
  split
  · have rest : 0xF0 + code / 262144 - 0xF0 = code / 262144 := by omega
    exact ⟨0x80, 0xBF, by rw [rest], by omega, by omega⟩
  · have four : code / 262144 = 4 := by omega
    exact ⟨0x80, 0x8F, by rw [four]; rfl, by omega, by omega⟩

theorem decode_encodeChar (char : Char) : decode (encodeChar char) = some [char] := by
  have whole := valid char
  have same := Char.ofNat_toNat char
  generalize codes : char.toNat = code at whole same
  rw [decode_eq_some, encodeChar]
  simp only [codes]
  split
  · next tiny => simp [run, step, codes, tiny]
  split
  · next large small =>
      have first : lead (0xC0 + code / 64) = some ⟨0, code / 64, 0x80, 0xBF⟩ := by
        rw [lead, if_pos (by omega)]
        simp
      have total : code / 64 * 64 + (0x80 + code % 64 - 128) = code := by omega
      rw [run, step_lead (by omega) (by omega), first]
      simp only [Option.map_some, run]
      rw [step_last (by omega) (by omega)]
      simp only [total, same, Option.map_some, List.nil_append, List.append_nil]
  split
  · next large small =>
      rcases lead_three (by omega) small (by omega) with ⟨low, high, first, bounded⟩
      have total : (code / 4096 * 64 + (0x80 + code / 64 % 64 - 128)) * 64 +
          (0x80 + code % 64 - 128) = code := by omega
      rw [run, step_lead (by omega) (by omega), first]
      simp only [Option.map_some, run]
      rw [step_more (by omega) bounded]
      simp only
      rw [step_last (by omega) (by omega)]
      simp only [total, same, Option.map_some, List.nil_append, List.append_nil]
  · next large =>
      rcases lead_four (Nat.not_lt.mp large) (by omega) with ⟨low, high, first, bounded⟩
      have total : ((code / 262144 * 64 + (0x80 + code / 4096 % 64 - 128)) * 64 +
          (0x80 + code / 64 % 64 - 128)) * 64 + (0x80 + code % 64 - 128) = code := by omega
      rw [run, step_lead (by omega) (by omega), first]
      simp only [Option.map_some, run]
      rw [step_more (by omega) bounded]
      simp only
      rw [step_more (by omega) (by omega)]
      simp only
      rw [step_last (by omega) (by omega)]
      simp only [total, same, Option.map_some, List.nil_append, List.append_nil]

theorem decode_encode (text : Line) : decode (encode text) = some text := by
  induction text with
  | nil => rfl
  | cons char rest induction =>
      rw [encode, List.flatMap_cons, decode_append (decode_encodeChar char)]
      rw [encode] at induction
      rw [induction]
      rfl

theorem length_step {pending next : Option Pending} {byte : Char} {text : Line}
    (stepped : step pending byte = some (next, text)) : text.length ≤ 1 := by
  cases pending with
  | none =>
      rw [step] at stepped
      split at stepped
      · cases stepped
        exact Nat.le_refl _
      · rcases Option.map_eq_some_iff.mp stepped with ⟨found, _, same⟩
        cases same
        exact Nat.zero_le _
  | some pending =>
      rw [step] at stepped
      split at stepped
      · split at stepped
        · cases stepped
          exact Nat.le_refl _
        · cases stepped
          exact Nat.zero_le _
      · cases stepped

/-- Each byte ends at most one character. -/
theorem length_run {pending next : Option Pending} {bytes text : Line}
    (done : run pending bytes = some (next, text)) : text.length ≤ bytes.length := by
  induction bytes generalizing pending text with
  | nil =>
      cases done
      exact Nat.le_refl _
  | cons byte rest induction =>
      rw [run] at done
      split at done
      · cases done
      · next stepped =>
          rcases Option.map_eq_some_iff.mp done with ⟨more, ran, same⟩
          cases same
          have first := length_step stepped
          have later := induction ran
          rw [List.length_append, List.length_cons]
          omega

theorem length_decode {bytes text : Line} (decoded : decode bytes = some text) :
    text.length ≤ bytes.length :=
  length_run (decode_eq_some.mp decoded)

end Homelab.Utf8
