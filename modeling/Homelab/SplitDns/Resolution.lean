import Homelab.SplitDns.Repair
import Mathlib.Data.List.MinMax

/-! # What the resolver does with the routes

tailscaled sends a name to the most specific route that covers it. Routes that cover one
name lie above each other, so a route that lists the nameserver is of no use where one
below it does not.
-/

namespace Homelab.SplitDns

open Text Python

/-! ## The order of names -/

/-- `name` is `zone` or below it, as whole labels. -/
def Under (zone name : String) : Prop := '.' :: zone.toList <:+ '.' :: name.toList

theorem Under.trans {zone name other : String} (first : Under zone name)
    (second : Under name other) : Under zone other :=
  List.IsSuffix.trans first second

theorem Under.antisymm {zone name : String} (below : Under zone name)
    (above : Under name zone) : zone = name := by
  have same := below.eq_of_length_le above.length_le
  rw [List.cons.injEq] at same
  exact String.toList_inj.mp same.2

/-- What lies above one name lies above each other. -/
theorem Under.total {zone other name : String} (first : Under zone name)
    (second : Under other name) : Under zone other ∨ Under other zone :=
  List.suffix_or_suffix_of_suffix first second

theorem Under.length_le {zone name : String} (below : Under zone name) :
    zone.toList.length ≤ name.toList.length := by
  have shorter := List.IsSuffix.length_le below
  simpa using shorter

/-- Of two names above one name, the longer one is below the other. -/
theorem Under.of_length_le {zone other name : String} (first : Under zone name)
    (second : Under other name) (shorter : zone.toList.length ≤ other.toList.length) :
    Under zone other :=
  List.suffix_of_suffix_length_le first second (by simpa using shorter)

variable {letters : Lowering}

theorem endsWith_iff (pattern text : String) :
    endsWith pattern text = true ↔ pattern.toList <:+ text.toList := by
  rw [endsWith, List.isPrefixOf_iff_prefix, List.reverse_prefix]

theorem covers_iff (route domain : String) :
    covers letters route domain = true ↔
      norm letters route ≠ "" ∧ norm letters domain ≠ "" ∧
        Under (norm letters route) (norm letters domain) := by
  rw [covers]
  split
  · next blank =>
      simp only [Bool.false_eq_true, false_iff]
      rintro ⟨named, required, _⟩
      exact blank.elim named required
  · next named =>
      rw [not_or] at named
      rw [Bool.or_eq_true, decide_eq_true_iff, endsWith_iff, Under, List.suffix_cons_iff,
        String.toList_append, List.cons.injEq, String.toList_inj]
      simp [named.1, named.2, eq_comm]

/-! ## The verdict -/

variable {routes : Routes} {nameserver : String}

theorem judgeDomain_ok (v : Verdict) (domain : String) :
    (judgeDomain letters routes nameserver v domain).ok = true ↔
      v.ok = true ∧ (norm letters domain ≠ "" →
        Served letters routes nameserver (norm letters domain)) := by
  simp only [judgeDomain]
  split
  · next blank => simp [blank]
  · next named =>
      split
      · next uncovered =>
          have unserved : ¬Served letters routes nameserver (norm letters domain) :=
            fun served => (none_covering _).mp uncovered (covered_of_served served)
          simp [Verdict.ok, named, unserved]
      · split
        · next unlisted =>
            have unserved : ¬Served letters routes nameserver (norm letters domain) :=
              fun served => by simp [(some_listed _).mpr served] at unlisted
            simp [Verdict.ok, named, unserved]
        · next listed =>
            have served : Served letters routes nameserver (norm letters domain) :=
              (some_listed _).mp (by simpa using listed)
            simp [served]

theorem judgeRoute_ok (requiredNorm : List String) (v : Verdict)
    (route : String × List String) :
    (judgeRoute letters requiredNorm nameserver v route).ok = v.ok := by
  rw [judgeRoute]
  split
  · rfl
  · split <;> rfl

/-- The verdict is fine when each required domain has some covering route that lists the
nameserver. -/
theorem ok_iff (required : List String) :
    (decide letters routes required nameserver).ok = true ↔
      ∀ domain ∈ required, norm letters domain ≠ "" →
        Served letters routes nameserver (norm letters domain) := by
  have judged : ∀ v : Verdict,
      (required.foldl (judgeDomain letters routes nameserver) v).ok = true ↔
        v.ok = true ∧ ∀ domain ∈ required, norm letters domain ≠ "" →
          Served letters routes nameserver (norm letters domain) := by
    induction required with
    | nil => simp
    | cons domain rest induction =>
        intro v
        rw [List.foldl_cons, induction, judgeDomain_ok, List.forall_mem_cons, and_assoc]
  have routed : ∀ (requiredNorm : List String) (entries : List (String × List String))
      (v : Verdict),
      (entries.foldl (judgeRoute letters requiredNorm nameserver) v).ok = v.ok := by
    intro requiredNorm entries
    induction entries with
    | nil => exact fun v => rfl
    | cons route rest induction =>
        intro v
        rw [List.foldl_cons, induction, judgeRoute_ok]
  rw [decide, routed, judged]
  exact and_iff_right rfl

/-! ## The resolver -/

section Resolver

variable (letters routes nameserver)

/-- No route that covers the name is longer than this one. -/
def MostSpecific (name : String) (route : String × List String) : Prop :=
  (route ∈ routes.entries ∧ covers letters route.1 name = true) ∧
    ∀ other ∈ routes.entries, covers letters other.1 name = true →
      (norm letters other.1).toList.length ≤ (norm letters route.1).toList.length

/-- The resolver sends the name to the nameserver, whichever spelling of the most
specific route it takes. -/
def Answered (name : String) : Prop :=
  (∃ route, MostSpecific letters routes name route) ∧
    ∀ route, MostSpecific letters routes name route → lists letters nameserver route.2 = true

/-- Below each covering route that leads elsewhere, another covering route leads to the
nameserver. -/
def Overridden (name : String) : Prop :=
  ∀ route ∈ routes.entries, covers letters route.1 name = true →
    lists letters nameserver route.2 = false →
    ∃ better ∈ routes.entries, covers letters better.1 name = true ∧
      lists letters nameserver better.2 = true ∧
      covers letters route.1 better.1 = true ∧ covers letters better.1 route.1 = false

end Resolver

instance (name : String) (route : String × List String) :
    Decidable (MostSpecific letters routes name route) :=
  inferInstanceAs (Decidable (_ ∧ ∀ other ∈ _, _))

/-- Of the routes that cover a name, one is the longest. -/
theorem exists_mostSpecific {name : String} (covered : Covered letters routes name) :
    ∃ route, MostSpecific letters routes name route := by
  let covering := routes.entries.filter fun route => covers letters route.1 name
  have listed : ∀ route, route ∈ covering ↔
      route ∈ routes.entries ∧ covers letters route.1 name = true :=
    fun route => List.mem_filter
  let size := fun route : String × List String => (norm letters route.1).toList.length
  cases longest : List.argmax size covering with
  | none =>
      rcases covered with ⟨route, member, covering⟩
      rw [List.argmax_eq_none] at longest
      have member := (listed route).mpr ⟨member, covering⟩
      rw [longest] at member
      cases member
  | some route =>
      refine ⟨route, (listed route).mp (List.argmax_mem longest), fun other member cover => ?_⟩
      have shorter : size other ≤ size route :=
        List.le_of_mem_argmax ((listed other).mpr ⟨member, cover⟩) longest
      exact shorter

/-- Among routes that cover one name, the shorter covers the longer. -/
theorem covers_iff_length_le {name zone other : String}
    (first : covers letters zone name = true) (second : covers letters other name = true) :
    covers letters zone other = true ↔
      (norm letters zone).toList.length ≤ (norm letters other).toList.length := by
  rw [covers_iff] at first second ⊢
  constructor
  · exact fun above => above.2.2.length_le
  · exact fun shorter =>
      ⟨first.1, second.1, first.2.2.of_length_le second.2.2 shorter⟩

/-- A name with a route to the nameserver is answered when every route elsewhere is
overridden. -/
theorem answered_iff_overridden {name : String}
    (served : Served letters routes nameserver name) :
    Answered letters routes nameserver name ↔
      Overridden letters routes nameserver name := by
  rcases exists_mostSpecific (covered_of_served served) with ⟨best, specific⟩
  constructor
  · intro answered route member covering elsewhere
    refine ⟨best, specific.1.1, specific.1.2, answered.2 best specific, ?_, ?_⟩
    · exact (covers_iff_length_le covering specific.1.2).mpr (specific.2 route member covering)
    · rw [Bool.eq_false_iff]
      intro above
      -- `route` would be as long as the longest, and so one of the most specific.
      have shorter := (covers_iff_length_le specific.1.2 covering).mp above
      have listed := answered.2 route ⟨⟨member, covering⟩, fun other otherMember cover =>
        (specific.2 other otherMember cover).trans shorter⟩
      rw [listed] at elsewhere
      cases elsewhere
  · intro overridden
    refine ⟨⟨best, specific⟩, fun route specific => ?_⟩
    by_contra unlisted
    rcases overridden route specific.1.1 specific.1.2 (by simpa using unlisted) with
      ⟨better, member, covering, _, _, below⟩
    have longest := specific.2 better member covering
    rw [(covers_iff_length_le covering specific.1.2).mpr longest] at below
    cases below

variable (letters routes nameserver) in
/-- An "ok" means that the required domains are answered, exactly when it is not given or
no route to another place lies below the routes to the nameserver. -/
theorem ok_sound_iff (required : List String) :
    ((decide letters routes required nameserver).ok = true →
      ∀ domain ∈ required, norm letters domain ≠ "" →
        Answered letters routes nameserver (norm letters domain)) ↔
    ((∃ domain ∈ required, norm letters domain ≠ "" ∧
        ¬Served letters routes nameserver (norm letters domain)) ∨
      ∀ domain ∈ required, norm letters domain ≠ "" →
        Overridden letters routes nameserver (norm letters domain)) := by
  rw [ok_iff]
  constructor
  · intro sound
    by_cases unserved : ∃ domain ∈ required, norm letters domain ≠ "" ∧
        ¬Served letters routes nameserver (norm letters domain)
    · exact .inl unserved
    · have served : ∀ domain ∈ required, norm letters domain ≠ "" →
          Served letters routes nameserver (norm letters domain) :=
        fun domain member named => Decidable.not_not.mp fun missing =>
          unserved ⟨domain, member, named, missing⟩
      exact .inr fun domain member named =>
        (answered_iff_overridden (served domain member named)).mp (sound served domain member named)
  · rintro (⟨domain, member, named, unserved⟩ | overridden) served
    · exact absurd (served domain member named) unserved
    · exact fun domain member named =>
        (answered_iff_overridden (served domain member named)).mpr (overridden domain member named)

/-- The route of the whole zone goes to the nameserver, and a host's own route elsewhere. -/
def shadowedRoutes : Routes :=
  (Dict.empty.put "internal" ["100.64.0.10"]).put "home.internal" ["10.9.9.9"]

theorem ok_unsound :
    ¬∀ (letters : Lowering) (routes : Routes) (required : List String) (nameserver : String),
      (decide letters routes required nameserver).ok = true →
        ∀ domain ∈ required, norm letters domain ≠ "" →
          Answered letters routes nameserver (norm letters domain) := by
  intro sound
  have answered := sound asciiLowering shadowedRoutes ["home.internal"] "100.64.0.10"
    (by decide +kernel) "home.internal" (by decide) (by decide +kernel)
  have listed := answered.2 ("home.internal", ["10.9.9.9"]) (by decide +kernel)
  have unlisted : lists asciiLowering "100.64.0.10" ["10.9.9.9"] = false := by decide +kernel
  rw [listed] at unlisted
  cases unlisted

end Homelab.SplitDns
