import Homelab.Foundation.Decimal
import Homelab.KernelIo.Scan

/-! # The snapshot of the boot that ended

What a scan renders reads back as it was, so the file stands for the boot id, the counts
and the snapshot of the last scan. Over any history the snapshot is that of the most
recent earlier boot, unless a scan that cannot read its boot id comes after one that can.
-/

namespace Homelab.KernelIo

open Text

/-! ## Lines -/

theorem stripPrefix_append (start rest : Line) : stripPrefix start (start ++ rest) = some rest := by
  have starts : start.isPrefixOf (start ++ rest) = true :=
    List.isPrefixOf_iff_prefix.mpr (List.prefix_append start rest)
  rw [stripPrefix, if_pos starts, List.drop_left]

theorem stripPrefix_of_ne {first other : Char} (different : other ≠ first)
    (start rest : Line) : stripPrefix (first :: start) (other :: rest) = none := by
  have starts : (first :: start).isPrefixOf (other :: rest) = false := by
    simp [List.isPrefixOf, Ne.symm different]
  rw [stripPrefix, starts]
  rfl

theorem series_eq : series =
    ['h', 'o', 'm', 'e', 'l', 'a', 'b', '_', 'k', 'e', 'r', 'n', 'e', 'l', '_', 'i', 'o', '_',
      'e', 'v', 'e', 'n', 't', 's'] := by
  unfold series
  exact toList_literal _ rfl

theorem suffix_eq : suffix = ['_', 'l', 'a', 's', 't', '_', 'b', 'o', 'o', 't'] := by
  unfold suffix
  exact toList_literal _ rfl

theorem bootIdMark_eq : bootIdMark =
    ['h', 'o', 'm', 'e', 'l', 'a', 'b', '_', 'k', 'e', 'r', 'n', 'e', 'l', '_', 'i', 'o', '_',
      'b', 'o', 'o', 't', '_', 'i', 'd', '_', 'i', 'n', 'f', 'o', '\x7b',
      'b', 'o', 'o', 't', '_', 'i', 'd', '=', '"'] := by
  unfold bootIdMark
  exact toList_literal _ rfl

theorem timestampMark_eq : timestampMark =
    ['h', 'o', 'm', 'e', 'l', 'a', 'b', '_', 'k', 'e', 'r', 'n', 'e', 'l', '_', 'i', 'o', '_',
      's', 'c', 'a', 'n', '_', 't', 'i', 'm', 'e', 's', 't', 'a', 'm', 'p', '_',
      's', 'e', 'c', 'o', 'n', 'd', 's', ' '] := by
  unfold timestampMark
  exact toList_literal _ rfl

def labelsBody (class_ : FaultClass) : Line :=
  "class=\"".toList ++ class_.name.toList ++ "\",severity=\"".toList ++
    (severityOf class_).toList ++ ['"']

theorem labels_eq (class_ : FaultClass) :
    labels class_ = '\x7b' :: labelsBody class_ ++ ['\x7d', ' '] := by
  have moved : ∀ first second third fourth : Line,
      '\x7b' :: first ++ second ++ third ++ fourth ++ ['"', '\x7d', ' '] =
        '\x7b' :: (first ++ second ++ third ++ fourth ++ ['"']) ++ ['\x7d', ' '] := by simp
  exact moved _ _ _ _

theorem labelsBody_open (class_ : FaultClass) : '\x7d' ∉ labelsBody class_ := by
  cases class_ <;> decide +kernel

theorem lastClass_labelsBody (class_ : FaultClass) :
    lastClass (labelsBody class_) = some class_.name.toList := by
  cases class_ <;> decide +kernel

theorem find_class (class_ : FaultClass) :
    classes.find? (fun other => other.name.toList = class_.name.toList) = some class_ := by
  cases class_ <;> decide +kernel

theorem toList_int (value : Nat) : (toString (value : Int)).toList = Nat.toDigits 10 value :=
  Json.toList_toString value

theorem readValue_toDigits (value : Nat) :
    readValue (Nat.toDigits 10 value) = some (value : ℚ) := by
  have digits : ∀ char ∈ Nat.toDigits 10 value, char.isDigit = true :=
    fun char => Json.toDigits_isDigit value
  have decimals : ∀ char ∈ Nat.toDigits 10 value, isDecimal char = true :=
    fun char member => isDecimal_of_isDigit (digits char member)
  have spanned : (Nat.toDigits 10 value).span isDecimal = (Nat.toDigits 10 value, []) := by
    rw [List.span_eq_takeWhile_dropWhile, List.takeWhile_eq_self_iff.mpr decimals,
      List.dropWhile_eq_nil_iff.mpr decimals]
  have whole : decimalOf (Nat.toDigits 10 value) = value := by
    rw [decimalOf_digits digits, Json.natOf_toDigits]
  rcases Json.toDigits_cons value with ⟨first, more, listed, digit⟩
  have unsigned : ∀ rest, Nat.toDigits 10 value ≠ '-' :: rest := by
    intro rest equal
    rw [listed] at equal
    exact Json.ne_of_isDigit digit (by decide) (List.cons.inj equal).1
  rw [readValue.eq_def]
  split
  next signed =>
    split at signed
    · next rest equal => exact absurd equal (unsigned rest)
    · injection signed with sign line
      subst sign line
      rw [spanned, listed]
      simp [scanDecimals, ← listed, whole]

theorem comment_eq (text : String) : comment text = '#' :: ' ' :: text.toList := by
  rw [comment, toList_literal "# " rfl]
  rfl

theorem readBootId_comment (text : String) : readBootId (comment text) = none := by
  rw [readBootId, comment_eq, bootIdMark_eq]
  rfl

theorem readEvent_comment (text : String) : readEvent (comment text) = none := by
  rw [readEvent, comment_eq, series_eq]
  rfl

theorem readLine_comment (floats : Floats) (previous : Previous) (text : String) :
    readLine floats previous (comment text) = previous := by
  rw [readLine, readBootId_comment]
  simp only [readEvent_comment]

theorem span_of_not_mem {mark : Char} {front : Line} (absent : mark ∉ front) (rest : Line) :
    (front ++ mark :: rest).span (· ≠ mark) = (front, mark :: rest) := by
  have visible : ∀ char ∈ front, decide (char ≠ mark) = true := fun char member => by
    rw [decide_eq_true_iff]
    rintro rfl
    exact absent member
  rw [List.span_eq_takeWhile_dropWhile, List.takeWhile_append_of_pos visible,
    List.dropWhile_append_of_pos visible]
  simp

theorem readBootId_events (rest : Line) :
    readBootId (series ++ rest) = none := by
  rw [readBootId, series_eq, bootIdMark_eq]
  rfl

/-- What follows the name of a series. -/
theorem readEvent_tail (class_ : FaultClass) (value : Nat) (snapshot : Bool) :
    (do
      let rest ← stripPrefix ['\x7b'] (labels class_ ++ Nat.toDigits 10 value)
      let (labels, rest) := rest.span (· ≠ '\x7d')
      let class_ ← lastClass labels
      match rest with
      | '\x7d' :: space :: rest =>
          if isSpace space then
            let value ← readValue (rest.dropWhile isSpace)
            return (snapshot, class_, value)
          else none
      | _ => none) = some (snapshot, class_.name.toList, (value : ℚ)) := by
  have opened : stripPrefix ['\x7b'] (labels class_ ++ Nat.toDigits 10 value) =
      some (labelsBody class_ ++ '\x7d' :: ' ' :: Nat.toDigits 10 value) := by
    rw [labels_eq, List.cons_append, List.cons_append, List.append_assoc]
    exact stripPrefix_append ['\x7b'] _
  have dropped : (Nat.toDigits 10 value).dropWhile isSpace = Nat.toDigits 10 value := by
    rcases Json.toDigits_cons value with ⟨first, more, digits, digit⟩
    rw [digits, List.dropWhile_cons_of_neg (by simp [isSpace_of_isDigit digit])]
  simp only [opened, bind, Option.bind_some, span_of_not_mem (labelsBody_open class_),
    lastClass_labelsBody, dropped, readValue_toDigits]
  rfl

theorem readEvent_eventLine (class_ : FaultClass) (value : Nat) :
    readEvent (eventLine class_ value) = some (false, class_.name.toList, (value : ℚ)) := by
  have tail := readEvent_tail class_ value false
  have live : stripPrefix suffix (labels class_ ++ Nat.toDigits 10 value) = none := by
    rw [labels_eq, suffix_eq]
    exact stripPrefix_of_ne (by decide) _ _
  rw [readEvent, eventLine, List.append_assoc, stripPrefix_append, toList_int]
  simp only [bind, Option.bind_some, live]
  exact tail

theorem readEvent_lastBootLine (class_ : FaultClass) (value : Nat) :
    readEvent (lastBootLine class_ value) = some (true, class_.name.toList, (value : ℚ)) := by
  have tail := readEvent_tail class_ value true
  rw [readEvent, lastBootLine, List.append_assoc, List.append_assoc, stripPrefix_append,
    toList_int]
  simp only [bind, Option.bind_some, stripPrefix_append]
  exact tail

/-! ## What reading a line adds -/

/-- The kernel's boot ids: visible ASCII without quotes. -/
def Identifier (bootId : String) : Prop :=
  ∀ char ∈ bootId.toList, (32 ≤ char.toNat ∧ char.toNat < 127) ∧ char ≠ '"'

instance (bootId : String) : Decidable (Identifier bootId) :=
  inferInstanceAs (Decidable (∀ char ∈ _, _))

/-- Boot ids that fit between quotes on a line. -/
def Legible (bootId : String) : Prop := '"' ∉ bootId.toList ∧ Unbroken bootId.toList

theorem Identifier.legible {bootId : String} (identifier : Identifier bootId) :
    Legible bootId := by
  refine ⟨fun member => (identifier _ member).2 rfl, fun char member => ?_⟩
  rcases (identifier char member).1 with ⟨low, high⟩
  simp [isBreak]
  omega

/-- Counts that a `float` holds. -/
def Counted (counts : Counts) : Prop :=
  ∀ class_, ∃ value : Nat, counts class_ = value ∧ value ≤ 2 ^ 53

variable (floats : Floats)

theorem trunc_round {value : Nat} (small : value ≤ 2 ^ 53) :
    Python.trunc (floats.round (value : ℚ)) = value := by
  have exact := floats.exact value (by
    rw [abs_of_nonneg (Int.natCast_nonneg value)]
    exact_mod_cast small)
  have same : floats.round (value : ℚ) = (value : ℚ) := by exact_mod_cast exact
  rw [same, Python.trunc]
  simp

theorem readLine_eventLine (previous : Previous) {class_ : FaultClass} {value : Nat}
    (small : value ≤ 2 ^ 53) :
    readLine floats previous (eventLine class_ value) =
      { previous with counts := previous.counts.set class_ value } := by
  have boot : readBootId (eventLine class_ value) = none := by
    rw [eventLine, List.append_assoc, readBootId_events]
  rw [readLine, boot]
  simp only [readEvent_eventLine, find_class, trunc_round floats small]
  rfl

theorem readLine_lastBootLine (previous : Previous) {class_ : FaultClass} {value : Nat}
    (small : value ≤ 2 ^ 53) :
    readLine floats previous (lastBootLine class_ value) =
      { previous with lastBoot := previous.lastBoot.set class_ value } := by
  have boot : readBootId (lastBootLine class_ value) = none := by
    rw [lastBootLine, List.append_assoc, List.append_assoc, readBootId_events]
  rw [readLine, boot]
  simp only [readEvent_lastBootLine, find_class, trunc_round floats small]
  rfl

theorem readBootId_bootIdLine {bootId : String} (legible : Legible bootId) :
    readBootId (bootIdLine bootId) = some bootId.toList := by
  rw [readBootId, bootIdLine, List.append_assoc, stripPrefix_append]
  simp only [bind, Option.bind_some, span_of_not_mem legible.1]
  rfl

theorem readLine_bootIdLine (previous : Previous) {bootId : String} (legible : Legible bootId) :
    readLine floats previous (bootIdLine bootId) = { previous with bootId := some bootId } := by
  rw [readLine, readBootId_bootIdLine legible]
  simp only [String.ofList_toList]

theorem readBootId_timestamp (rest : Line) : readBootId (timestampMark ++ rest) = none := by
  rw [readBootId, timestampMark_eq, bootIdMark_eq]
  rfl

theorem readEvent_timestamp (rest : Line) : readEvent (timestampMark ++ rest) = none := by
  rw [readEvent, timestampMark_eq, series_eq]
  rfl

theorem readLine_timestamp (previous : Previous) (rest : Line) :
    readLine floats previous (timestampMark ++ rest) = previous := by
  rw [readLine, readBootId_timestamp]
  simp only [readEvent_timestamp]

/-- Setting every class one after the other sets them all. -/
theorem foldl_set (counts : Counts) (listed : List FaultClass) (from_ : Counts) :
    listed.foldl (fun (into : Counts) class_ => into.set class_ (counts class_)) from_ =
      fun class_ => if class_ ∈ listed then counts class_ else from_ class_ := by
  induction listed generalizing from_ with
  | nil => simp
  | cons first rest induction =>
      rw [List.foldl_cons, induction]
      funext class_
      by_cases later : class_ ∈ rest
      · simp [later]
      · by_cases same : class_ = first
        · simp [same, Counts.set]
        · simp [later, same, Counts.set]

theorem mem_sortedClasses (class_ : FaultClass) : class_ ∈ sortedClasses := by
  cases class_ <;> decide

theorem foldl_sortedClasses (counts from_ : Counts) :
    sortedClasses.foldl (fun (into : Counts) class_ => into.set class_ (counts class_)) from_ =
      counts := by
  rw [foldl_set]
  funext class_
  rw [if_pos (mem_sortedClasses class_)]

theorem foldl_eventLine {counts : Counts} (counted : Counted counts)
    (listed : List FaultClass) (previous : Previous) :
    (listed.map fun class_ => eventLine class_ (counts class_)).foldl (readLine floats) previous =
      { previous with
        counts := listed.foldl (fun (into : Counts) class_ => into.set class_ (counts class_))
          previous.counts } := by
  induction listed generalizing previous with
  | nil => rfl
  | cons first rest induction =>
      rcases counted first with ⟨value, same, small⟩
      rw [List.map_cons, List.foldl_cons, List.foldl_cons, same,
        readLine_eventLine floats previous small, induction]

theorem foldl_lastBootLine {counts : Counts} (counted : Counted counts)
    (listed : List FaultClass) (previous : Previous) :
    (listed.map fun class_ => lastBootLine class_ (counts class_)).foldl (readLine floats)
        previous =
      { previous with
        lastBoot := listed.foldl (fun (into : Counts) class_ => into.set class_ (counts class_))
          previous.lastBoot } := by
  induction listed generalizing previous with
  | nil => rfl
  | cons first rest induction =>
      rcases counted first with ⟨value, same, small⟩
      rw [List.map_cons, List.foldl_cons, List.foldl_cons, same,
        readLine_lastBootLine floats previous small, induction]

theorem readLines_events {counts : Counts} (counted : Counted counts) (previous : Previous) :
    (eventLines counts).foldl (readLine floats) previous =
      { previous with counts := counts } := by
  rw [eventLines, List.foldl_append, List.foldl_cons, List.foldl_cons, List.foldl_nil,
    readLine_comment, readLine_comment, foldl_eventLine floats counted, foldl_sortedClasses]

theorem readLines_lastBoot {counts : Counts} (counted : Counted counts) (previous : Previous) :
    (lastBootLines counts).foldl (readLine floats) previous =
      { previous with lastBoot := counts } := by
  rw [lastBootLines, List.foldl_append, List.foldl_cons, List.foldl_cons, List.foldl_nil,
    readLine_comment, readLine_comment, foldl_lastBootLine floats counted, foldl_sortedClasses]

theorem readLines_bootId {bootId : String} (legible : Legible bootId)
    (previous : Previous) :
    (bootIdLines bootId).foldl (readLine floats) previous =
      { previous with bootId := some bootId } := by
  rw [bootIdLines, List.foldl_cons, List.foldl_cons, List.foldl_cons, List.foldl_nil,
    readLine_comment, readLine_comment, readLine_bootIdLine floats previous legible]

theorem readLines_timestamp (now : Nat) (previous : Previous) :
    (timestampLines now).foldl (readLine floats) previous = previous := by
  rw [timestampLines, List.foldl_cons, List.foldl_cons, List.foldl_cons, List.foldl_nil,
    readLine_comment, readLine_comment, readLine_timestamp]

/-! ## No line is broken -/

theorem unbroken_digits (value : Nat) : Unbroken (Nat.toDigits 10 value) := by
  intro char member
  have digit := Json.toDigits_isDigit value member
  simp only [Char.isDigit, Bool.and_eq_true, decide_eq_true_iff, ge_iff_le,
    UInt32.le_iff_toNat_le] at digit
  have low : 48 ≤ char.toNat := digit.1
  have high : char.toNat ≤ 57 := digit.2
  simp [isBreak]
  omega

theorem unbroken_literal {text : String} {chars : Line} (same : text = .ofList chars)
    (unbroken : Unbroken chars) : Unbroken text.toList := by
  rw [toList_literal text same]
  exact unbroken

theorem unbroken_comment {text : String} (unbroken : Unbroken text.toList) :
    Unbroken (comment text) :=
  Unbroken.append (by decide) unbroken

theorem unbroken_comment_append {first second : String} (left : Unbroken first.toList)
    (right : Unbroken second.toList) : Unbroken (comment (first ++ second)) := by
  apply unbroken_comment
  rw [String.toList_append]
  exact left.append right

theorem unbroken_name (class_ : FaultClass) : Unbroken class_.name.toList := by
  cases class_ <;> exact unbroken_literal rfl (by decide)

theorem unbroken_severity (class_ : FaultClass) : Unbroken (severityOf class_).toList := by
  cases class_ <;> exact unbroken_literal rfl (by decide)

theorem unbroken_labels (class_ : FaultClass) : Unbroken (labels class_) := by
  have opened : Unbroken "\x7bclass=\"".toList := unbroken_literal rfl (by decide)
  have between : Unbroken "\",severity=\"".toList := unbroken_literal rfl (by decide)
  have closed : Unbroken ['"', '\x7d', ' '] := by decide
  exact (((opened.append (unbroken_name class_)).append between).append
    (unbroken_severity class_)).append closed

theorem unbroken_series : Unbroken series := by
  rw [series_eq]
  decide

theorem unbroken_suffix : Unbroken suffix := by
  rw [suffix_eq]
  decide

theorem unbroken_counted {start : Line} (unbroken : Unbroken start) {counts : Counts}
    (counted : Counted counts) (class_ : FaultClass) :
    Unbroken (start ++ labels class_ ++ (toString (counts class_)).toList) := by
  rcases counted class_ with ⟨value, same, _⟩
  rw [same, toList_int]
  exact (unbroken.append (unbroken_labels class_)).append (unbroken_digits value)

section Literals

set_option maxRecDepth 20000

theorem unbroken_eventLines {counts : Counts} (counted : Counted counts) :
    ∀ line ∈ eventLines counts, Unbroken line := by
  intro line member
  rcases List.mem_append.mp member with member | member
  · rcases List.mem_cons.mp member with rfl | member
    · exact unbroken_comment (unbroken_literal rfl (by decide))
    · rw [List.mem_singleton.mp member]
      exact unbroken_comment (unbroken_literal rfl (by decide))
  · rcases List.mem_map.mp member with ⟨class_, _, rfl⟩
    exact unbroken_counted unbroken_series counted class_

theorem unbroken_lastBootLines {counts : Counts} (counted : Counted counts) :
    ∀ line ∈ lastBootLines counts, Unbroken line := by
  intro line member
  rcases List.mem_append.mp member with member | member
  · rcases List.mem_cons.mp member with rfl | member
    · exact unbroken_comment_append (unbroken_literal rfl (by decide))
        (unbroken_literal rfl (by decide))
    · rw [List.mem_singleton.mp member]
      exact unbroken_comment (unbroken_literal rfl (by decide))
  · rcases List.mem_map.mp member with ⟨class_, _, rfl⟩
    exact unbroken_counted (unbroken_series.append unbroken_suffix) counted class_

theorem unbroken_bootIdLines {bootId : String} (legible : Legible bootId) :
    ∀ line ∈ bootIdLines bootId, Unbroken line := by
  have mark : Unbroken bootIdMark := by
    rw [bootIdMark_eq]
    decide
  simp only [-String.reduceAppend, bootIdLines, List.forall_mem_cons]
  refine ⟨unbroken_comment_append (unbroken_literal rfl (by decide))
    (unbroken_literal rfl (by decide)), unbroken_comment (unbroken_literal rfl (by decide)),
    (mark.append legible.2).append (by decide), by simp⟩

theorem unbroken_timestampLines (now : Nat) :
    ∀ line ∈ timestampLines now, Unbroken line := by
  have mark : Unbroken timestampMark := by
    rw [timestampMark_eq]
    decide
  have digits : Unbroken (toString now).toList := by
    rw [Json.toList_toString]
    exact unbroken_digits now
  simp only [-String.reduceAppend, timestampLines, List.forall_mem_cons]
  exact ⟨unbroken_comment_append (unbroken_literal rfl (by decide))
    (unbroken_literal rfl (by decide)), unbroken_comment (unbroken_literal rfl (by decide)),
    mark.append digits, by simp⟩

end Literals

/-! ## The file reads back -/

/-- The file of a scan with a readable boot id stands for the three things it holds. -/
theorem parseProm_renderProm {counts lastBoot : Counts} (counted : Counted counts)
    (snapshot : Counted lastBoot) (now : Nat) {bootId : String}
    (legible : Legible bootId) :
    parseProm floats (joined (renderProm counts now (some bootId) (some lastBoot))) =
      { bootId := some bootId, counts := counts, lastBoot := lastBoot } := by
  have unbroken : ∀ line ∈ renderProm counts now (some bootId) (some lastBoot),
      Unbroken line := by
    simp only [renderProm, Option.map_some, Option.getD_some, List.forall_mem_append]
    exact ⟨⟨⟨unbroken_eventLines counted, unbroken_lastBootLines snapshot⟩,
      unbroken_bootIdLines legible⟩, unbroken_timestampLines now⟩
  rw [parseProm, lines_joined unbroken]
  simp only [renderProm, Option.map_some, Option.getD_some, List.foldl_append,
    readLines_events floats counted, readLines_lastBoot floats snapshot,
    readLines_bootId floats legible, readLines_timestamp]

/-- The file of a scan without one holds nothing but the counts. -/
theorem parseProm_unidentified {counts : Counts} (counted : Counted counts) (now : Nat) :
    parseProm floats (joined (renderProm counts now none none)) =
      { bootId := none, counts := counts, lastBoot := zeros } := by
  have unbroken : ∀ line ∈ renderProm counts now none none, Unbroken line := by
    simp only [renderProm, Option.map_none, Option.getD_none, List.append_nil,
      List.forall_mem_append]
    exact ⟨unbroken_eventLines counted, unbroken_timestampLines now⟩
  rw [parseProm, lines_joined unbroken]
  simp only [renderProm, Option.map_none, Option.getD_none, List.append_nil,
    List.foldl_append, readLines_events floats counted, readLines_timestamp]
  rfl

/-! ## Histories -/

theorem scan_bounds (log : List Line) (class_ : FaultClass) :
    ∃ value : Nat, scan log class_ = value ∧ value ≤ log.length := by
  have counted : ∀ (log : List Line) (counts : Counts) (bound : Nat),
      (∀ class_, ∃ value : Nat, counts class_ = value ∧ value ≤ bound) →
      ∀ class_, ∃ value : Nat, log.foldl
        (fun counts line =>
          (classify line).elim counts fun class_ => counts.set class_ (counts class_ + 1))
        counts class_ = value ∧ value ≤ bound + log.length := by
    intro log
    induction log with
    | nil => exact fun counts bound counted => counted
    | cons line rest induction =>
        intro counts bound counted class_
        rw [List.foldl_cons, List.length_cons, Nat.add_comm rest.length, ← Nat.add_assoc]
        apply induction
        intro other
        rcases counted other with ⟨value, same, small⟩
        cases found : classify line with
        | none => exact ⟨value, same, Nat.le_succ_of_le small⟩
        | some class_ =>
            simp only [Option.elim_some, Counts.set]
            split
            · next equal =>
                subst equal
                exact ⟨value + 1, by rw [same]; rfl, Nat.succ_le_succ small⟩
            · exact ⟨value, same, Nat.le_succ_of_le small⟩
  have bounds := counted log zeros 0 (fun _ => ⟨0, rfl, Nat.le_refl 0⟩) class_
  have steps : scan log = log.foldl (fun counts line =>
      (classify line).elim counts fun class_ => counts.set class_ (counts class_ + 1)) zeros := by
    rw [scan]
    congr 1
    funext counts line
    cases classify line <;> rfl
  rwa [Nat.zero_add, ← steps] at bounds

/-- The scans that know their boot, the latest first. -/
def identified (history : List Event) : List Scan :=
  (history.filterMap fun event =>
    match event with
    | .scanned scan => if scan.bootId = "" then none else some scan
    | .failed => none).reverse

/-- The last counts of the most recent boot with another id. -/
def endedBoot (scans : List Scan) (bootId : String) : Counts :=
  match scans.dropWhile (·.bootId = bootId) with
  | [] => zeros
  | last :: _ => scan last.log

def Kept (before : List Event) : Event → Prop
  | .failed => fileAfter floats (before ++ [.failed]) = fileAfter floats before
  | .scanned scanned =>
      if scanned.bootId = "" then
        let earlier := parseProm floats ((fileAfter floats before).getD [])
        let later := parseProm floats
          ((fileAfter floats (before ++ [.scanned scanned])).getD [])
        later.bootId = earlier.bootId ∧ later.lastBoot = earlier.lastBoot
      else
        fileAfter floats (before ++ [.scanned scanned]) =
          some (joined (renderProm (scan scanned.log) scanned.now (some scanned.bootId)
            (some (endedBoot (identified before) scanned.bootId))))

/-- Every run of the history leaves the snapshot as it has to be. -/
def Keeps (history : List Event) : Prop :=
  ∀ before event after, history = before ++ event :: after → Kept floats before event

/-- A scan does not know its boot only before the first one that does. -/
def Steady (history : List Event) : Prop :=
  ∀ before scanned after, history = before ++ .scanned scanned :: after →
    scanned.bootId = "" → identified before = []

/-- Boot ids are as the kernel gives them, and no log has more lines than a `float` counts. -/
def Clean (history : List Event) : Prop :=
  ∀ scanned, .scanned scanned ∈ history →
    Identifier scanned.bootId ∧ scanned.log.length ≤ 2 ^ 53

variable {floats}

theorem Clean.of_append {before after : List Event} (clean : Clean (before ++ after)) :
    Clean before :=
  fun scanned member => clean scanned (List.mem_append_left _ member)

theorem Steady.of_append {before after : List Event} (steady : Steady (before ++ after)) :
    Steady before := by
  intro front scanned back same
  apply steady front scanned (back ++ after)
  rw [same, List.append_assoc, List.cons_append]

theorem Keeps.of_append {before after : List Event} (keeps : Keeps floats (before ++ after)) :
    Keeps floats before := by
  intro front event back same
  apply keeps front event (back ++ after)
  rw [same, List.append_assoc, List.cons_append]

theorem counted_scan {scanned : Scan} (short : scanned.log.length ≤ 2 ^ 53) :
    Counted (scan scanned.log) := fun class_ => by
  rcases scan_bounds scanned.log class_ with ⟨value, same, small⟩
  exact ⟨value, same, small.trans short⟩

theorem mem_identified {history : List Event} {scanned : Scan}
    (member : scanned ∈ identified history) :
    .scanned scanned ∈ history ∧ scanned.bootId ≠ "" := by
  rw [identified, List.mem_reverse, List.mem_filterMap] at member
  rcases member with ⟨event, member, known⟩
  cases event with
  | failed => cases known
  | scanned own =>
      simp only at known
      split at known
      · cases known
      · next named =>
          injection known with same
          exact same ▸ ⟨member, named⟩

theorem counted_endedBoot {history : List Event} (clean : Clean history) {scans : List Scan}
    (listed : ∀ scanned ∈ scans, scanned ∈ identified history) (bootId : String) :
    Counted (endedBoot scans bootId) := by
  rw [endedBoot]
  split
  · exact fun _ => ⟨0, rfl, Nat.zero_le _⟩
  · next last rest found =>
      have member : last ∈ scans :=
        (List.dropWhile_sublist _).subset (by rw [found]; exact List.mem_cons_self)
      exact counted_scan (clean last (mem_identified (listed last member)).1).2

theorem fileAfter_append (before : List Event) (event : Event) :
    fileAfter floats (before ++ [event]) = step floats (fileAfter floats before) event := by
  rw [fileAfter, List.foldl_append]
  rfl

theorem identified_append (before : List Event) (event : Event) :
    identified (before ++ [event]) =
      match event with
      | .scanned scanned =>
          if scanned.bootId = "" then identified before else scanned :: identified before
      | .failed => identified before := by
  rw [identified, List.filterMap_append, List.reverse_append]
  cases event with
  | failed => rfl
  | scanned scanned =>
      by_cases blank : scanned.bootId = ""
      · simp [blank, identified]
      · simp [blank, identified]

/-- What the file stands for: nothing but live counts, or the last scan that knew its boot
and the snapshot at that scan. -/
def Stands (floats : Floats) (scans : List Scan) (file : Option (List Char)) : Prop :=
  match scans with
  | [] => (parseProm floats (file.getD [])).bootId = none ∧
      (parseProm floats (file.getD [])).lastBoot = zeros
  | last :: earlier => file = some (joined (renderProm (scan last.log) last.now
      (some last.bootId) (some (endedBoot earlier last.bootId))))

/-- The snapshot that the next scan emits. -/
theorem carryForward_stands {history : List Event} (clean : Clean history)
    {file : Option (List Char)} (stands : Stands floats (identified history) file)
    {bootId : String} (named : bootId ≠ "") :
    carryForward (parseProm floats (file.getD [])) bootId =
      endedBoot (identified history) bootId := by
  cases scans : identified history with
  | nil =>
      rw [scans] at stands
      simp only [carryForward, stands.1, stands.2]
      rfl
  | cons last earlier =>
      have member : last ∈ identified history := by rw [scans]; exact List.mem_cons_self
      rcases mem_identified member with ⟨listed, lastNamed⟩
      rcases clean last listed with ⟨identifier, short⟩
      have snapshot : Counted (endedBoot earlier last.bootId) :=
        counted_endedBoot clean
          (fun other member => by rw [scans]; exact List.mem_cons_of_mem _ member) last.bootId
      have file : file = some (joined (renderProm (scan last.log) last.now (some last.bootId)
          (some (endedBoot earlier last.bootId)))) := by
        rw [scans] at stands
        exact stands
      rw [file, Option.getD_some,
        parseProm_renderProm floats (counted_scan short) snapshot last.now identifier.legible]
      simp only [carryForward, named, lastNamed, or_self, if_false]
      split
      · next other =>
          rw [endedBoot, List.dropWhile_cons_of_neg (by simpa using other)]
      · next same =>
          have same : last.bootId = bootId := not_not.mp same
          rw [endedBoot, endedBoot, List.dropWhile_cons_of_pos (by simpa using same), same]

theorem stands_step {before : List Event} {event : Event} (clean : Clean (before ++ [event]))
    (steady : Steady (before ++ [event]))
    (stands : Stands floats (identified before) (fileAfter floats before)) :
    Stands floats (identified (before ++ [event])) (fileAfter floats (before ++ [event])) := by
  rw [identified_append, fileAfter_append]
  cases event with
  | failed => exact stands
  | scanned scanned =>
      have short := (clean scanned (by simp)).2
      simp only [step, main]
      split
      · next blank =>
          have unknown := steady before scanned [] rfl blank
          rw [unknown]
          have parsed := parseProm_unidentified floats (counted_scan short) scanned.now
          exact ⟨congrArg Previous.bootId parsed, congrArg Previous.lastBoot parsed⟩
      · next named =>
          rw [carryForward_stands clean.of_append stands named]
          rfl

variable (floats) in
/-- The file stands for the last scan that knew its boot, all along a steady history. -/
theorem stands_fileAfter {history : List Event} (clean : Clean history)
    (steady : Steady history) :
    Stands floats (identified history) (fileAfter floats history) := by
  induction history using List.reverseRecOn with
  | nil => exact ⟨rfl, rfl⟩
  | append_singleton before event induction =>
      exact stands_step clean steady (induction clean.of_append steady.of_append)

theorem kept_of_steady {before : List Event} {event : Event}
    (clean : Clean (before ++ [event])) (steady : Steady (before ++ [event])) :
    Kept floats before event := by
  have stands := stands_fileAfter floats clean.of_append steady.of_append
  have later := stands_fileAfter floats clean steady
  cases event with
  | failed => exact fileAfter_append before .failed
  | scanned scanned =>
      rw [identified_append] at later
      simp only [Kept]
      split
      · next blank =>
          have unknown := steady before scanned [] rfl blank
          simp only [blank, if_true, unknown] at later
          rw [unknown] at stands
          exact ⟨later.1.trans stands.1.symm, later.2.trans stands.2.symm⟩
      · next named =>
          simp only [named, if_false] at later
          exact later

/-- A scan without a boot id, after one with it, forgets the boot. -/
theorem unknown_of_kept {before : List Event} {scanned : Scan}
    (clean : Clean (before ++ [.scanned scanned])) (steady : Steady before)
    (kept : Kept floats before (.scanned scanned)) (blank : scanned.bootId = "") :
    identified before = [] := by
  have stands := stands_fileAfter floats clean.of_append steady
  cases scans : identified before with
  | nil => rfl
  | cons last earlier =>
      have member : last ∈ identified before := by rw [scans]; exact List.mem_cons_self
      rcases clean.of_append last (mem_identified member).1 with ⟨identifier, short⟩
      have snapshot : Counted (endedBoot earlier last.bootId) :=
        counted_endedBoot clean.of_append
          (fun other member => by rw [scans]; exact List.mem_cons_of_mem _ member) last.bootId
      rw [scans] at stands
      rw [Kept, if_pos blank, fileAfter_append] at kept
      simp only [step, main, if_pos blank, Option.getD_some, Stands] at kept stands
      have same := kept.1
      rw [parseProm_unidentified floats (counted_scan (clean scanned (by simp)).2), stands,
        Option.getD_some,
        parseProm_renderProm floats (counted_scan short) snapshot last.now
          identifier.legible] at same
      cases same

variable (floats) in
/-- The snapshot is kept over a history exactly when no scan without a boot id comes after
one with it. -/
theorem keeps_iff_steady (history : List Event) (clean : Clean history) :
    Keeps floats history ↔ Steady history := by
  constructor
  · intro keeps
    induction history using List.reverseRecOn with
    | nil =>
        intro before scanned after same
        simp at same
    | append_singleton front event induction =>
        have steady := induction clean.of_append keeps.of_append
        intro before scanned after same blank
        rcases List.eq_nil_or_concat after with rfl | ⟨rest, last, rfl⟩
        · rcases List.append_inj' same rfl with ⟨rfl, single⟩
          injection single with single
          subst single
          exact unknown_of_kept clean steady (keeps front _ [] rfl) blank
        · rw [List.concat_eq_append, ← List.cons_append, ← List.append_assoc] at same
          exact steady before scanned rest (List.append_inj' same rfl).1 blank
  · intro steady before event after same
    rw [← List.singleton_append, ← List.append_assoc] at same
    subst same
    exact kept_of_steady clean.of_append steady.of_append

/-- Floating point without rounding. -/
def wholeFloats : Floats where
  round := id
  exact := fun _ _ => rfl

/-- A boot ends with a disk that drops off the bus, and another one begins. -/
def dropout : List Event :=
  [.scanned { bootId := "a", log := ["usb 2-1: USB disconnect".toList], now := 1 },
    .scanned { bootId := "b", log := [], now := 2 }]

theorem clean_dropout : Clean dropout := by
  intro scanned member
  simp only [dropout, List.mem_cons, Event.scanned.injEq, List.not_mem_nil, or_false] at member
  rcases member with rfl | rfl
  · exact ⟨by decide, by decide⟩
  · exact ⟨by decide, by decide⟩

theorem steady_dropout : Steady dropout := by
  intro before scanned after same blank
  have member : .scanned scanned ∈ dropout := by
    rw [same]
    exact List.mem_append_right _ List.mem_cons_self
  simp only [dropout, List.mem_cons, Event.scanned.injEq, List.not_mem_nil, or_false] at member
  rcases member with rfl | rfl
  · exact absurd blank (by decide)
  · exact absurd blank (by decide)

theorem keeps_iff_steady_dropout : Keeps wholeFloats dropout :=
  (keeps_iff_steady wholeFloats dropout clean_dropout).mpr steady_dropout

/-- The boot id cannot be read once, and what is known of the dropout is gone. -/
theorem snapshot_lost :
    ¬Keeps wholeFloats (dropout ++ [.scanned { bootId := "", log := [], now := 3 }]) := by
  intro keeps
  have clean : Clean (dropout ++ [.scanned { bootId := "", log := [], now := 3 }]) := by
    intro scanned member
    rcases List.mem_append.mp member with member | member
    · exact clean_dropout scanned member
    · rw [List.mem_singleton, Event.scanned.injEq] at member
      subst member
      exact ⟨by decide, by decide⟩
  have unknown := unknown_of_kept clean steady_dropout (keeps dropout _ [] rfl) rfl
  simp [dropout, identified] at unknown

end Homelab.KernelIo
