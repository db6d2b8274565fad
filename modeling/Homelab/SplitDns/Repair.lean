import Homelab.SplitDns.Decider

/-! # The patch repairs what it was made for

Every required domain is missing, misrouted or satisfied, and every route is left over
or not. The verdict lists exactly these, the patch names exactly the unsatisfied domains
and the left-over routes, and on the routes it leads to nothing is left to report.
-/

namespace Homelab.SplitDns

open Text Python

variable (letters : Lowering)

/-! ## Names without white space -/

theorem rstrip_eq_self {chars : List Char} {text : String}
    (clean : ∀ char, text.toList.getLast? = some char → char ∉ chars) :
    rstrip chars text = text := by
  have kept : text.toList.rdropWhile (fun char => chars.contains char) = text.toList :=
    List.rdropWhile_eq_self_iff.mpr fun long => by
      simpa using clean _ (List.getLast?_eq_some_getLast long)
  rw [rstrip, kept, String.ofList_toList]

theorem rstrip_clean {chars : List Char} {text : String} {char : Char}
    (last : (rstrip chars text).toList.getLast? = some char) : char ∉ chars := by
  rw [rstrip, String.toList_ofList] at last
  have long : text.toList.rdropWhile (fun char => chars.contains char) ≠ [] := fun empty => by
    rw [empty] at last
    cases last
  rw [List.getLast?_eq_some_getLast long, Option.some.injEq] at last
  subst last
  simpa using List.rdropWhile_last_not _ _ long

theorem rstrip_spaceless {chars : List Char} {text : String} (spaceless : Spaceless text) :
    Spaceless (rstrip chars text) := fun char member => by
  rw [rstrip, String.toList_ofList] at member
  exact spaceless char ((List.rdropWhile_prefix _ _).subset member)

variable {letters}

theorem norm_norm {domain : String} (spaceless : Spaceless domain) :
    norm letters (norm letters domain) = norm letters domain := by
  have kept : Spaceless (rstrip ['.'] domain) := rstrip_spaceless spaceless
  have undotted : rstrip ['.'] (letters.lower (rstrip ['.'] domain)) =
      letters.lower (rstrip ['.'] domain) := by
    apply rstrip_eq_self
    intro char last
    rw [List.mem_singleton]
    intro dot
    subst dot
    exact rstrip_clean (letters.dotless _ last) (List.mem_singleton_self _)
  rw [norm, norm, strip_spaceless spaceless, strip_spaceless (letters.spaceless _ kept),
    undotted, letters.idempotent]

theorem covers_norm_right {domain : String} (spaceless : Spaceless domain) (route : String) :
    covers letters route (norm letters domain) = covers letters route domain := by
  simp only [covers, norm_norm spaceless]

theorem covers_norm_left {domain : String} (spaceless : Spaceless domain) (route : String) :
    covers letters (norm letters domain) route = covers letters domain route := by
  simp only [covers, norm_norm spaceless]

theorem covers_self {domain : String} (named : norm letters domain ≠ "") :
    covers letters domain domain = true := by
  simp [covers, named]

/-! ## What the verdict lists -/

section Verdict

variable (letters) (routes : Routes) (nameserver : String)

def Covered (domain : String) : Prop :=
  ∃ route ∈ routes.entries, covers letters route.1 domain = true

/-- Some route that covers the domain lists the nameserver. -/
def Served (domain : String) : Prop :=
  ∃ route ∈ routes.entries, covers letters route.1 domain = true ∧
    lists letters nameserver route.2 = true

instance (domain : String) : Decidable (Covered letters routes domain) :=
  inferInstanceAs (Decidable (∃ route ∈ _, _))

instance (domain : String) : Decidable (Served letters routes nameserver domain) :=
  inferInstanceAs (Decidable (∃ route ∈ _, _))

/-- The domain is a requirement, and no route covers it. -/
def Missing (domain : String) : Prop :=
  norm letters domain ≠ "" ∧ ¬Covered letters routes domain

/-- Routes cover the domain, none of them to the nameserver. -/
def Misrouted (domain : String) : Prop :=
  norm letters domain ≠ "" ∧ Covered letters routes domain ∧
    ¬Served letters routes nameserver domain

/-- The required domain is not answered by the nameserver. -/
def Unsatisfied (domain : String) : Prop :=
  norm letters domain ≠ "" ∧ ¬Served letters routes nameserver domain

instance (domain : String) : Decidable (Missing letters routes domain) :=
  inferInstanceAs (Decidable (_ ∧ _))

instance (domain : String) : Decidable (Misrouted letters routes nameserver domain) :=
  inferInstanceAs (Decidable (_ ∧ _))

instance (domain : String) : Decidable (Unsatisfied letters routes nameserver domain) :=
  inferInstanceAs (Decidable (_ ∧ _))

/-- The route goes to the nameserver, and has nothing to do with what is required. -/
def LeftOver (required : List String) (route : String × List String) : Prop :=
  lists letters nameserver route.2 = true ∧
    ∀ domain ∈ required, norm letters domain ≠ "" →
      covers letters route.1 domain = false ∧ covers letters domain route.1 = false

instance (required : List String) (route : String × List String) :
    Decidable (LeftOver letters nameserver required route) :=
  inferInstanceAs (Decidable (_ ∧ ∀ domain ∈ _, _))

variable {letters routes nameserver}

theorem covered_of_served {domain : String} (served : Served letters routes nameserver domain) :
    Covered letters routes domain := by
  rcases served with ⟨route, member, covering, _⟩
  exact ⟨route, member, covering⟩

theorem none_covering (domain : String) :
    (routes.entries.filter fun route => covers letters route.1 domain).isEmpty = true ↔
      ¬Covered letters routes domain := by
  simp [Covered, List.isEmpty_iff]

theorem some_listed (domain : String) :
    ((routes.entries.filter fun route => covers letters route.1 domain).any
      fun route => lists letters nameserver route.2) = true ↔
        Served letters routes nameserver domain := by
  simp [Served]

/-- What one required domain adds to the verdict. -/
theorem judgeDomain_eq {domain : String} (spaceless : Spaceless domain) (v : Verdict) :
    judgeDomain letters routes nameserver v domain =
      { v with
        missing := v.missing ++ if Missing letters routes domain then [domain] else []
        misrouted := v.misrouted ++
          if Misrouted letters routes nameserver domain then [domain] else []
        desiredPatch :=
          if Unsatisfied letters routes nameserver domain then
            v.desiredPatch.put domain (some [nameserver])
          else v.desiredPatch } := by
  have stripped : strip domain = domain := strip_spaceless spaceless
  simp only [judgeDomain, stripped, covers_norm_right spaceless]
  split
  · next blank => simp [Missing, Misrouted, Unsatisfied, blank]
  · next named =>
      split
      · next uncovered =>
          have uncovered := (none_covering domain).mp uncovered
          have unserved : ¬Served letters routes nameserver domain :=
            fun served => uncovered (covered_of_served served)
          simp [Missing, Misrouted, Unsatisfied, named, uncovered, unserved]
      · next covered =>
          have covered : Covered letters routes domain :=
            Decidable.not_not.mp fun uncovered => covered ((none_covering domain).mpr uncovered)
          split
          · next unlisted =>
              have unserved : ¬Served letters routes nameserver domain := fun served => by
                simp [(some_listed domain).mpr served] at unlisted
              simp [Missing, Misrouted, Unsatisfied, named, covered, unserved]
          · next listed =>
              have served : Served letters routes nameserver domain :=
                (some_listed domain).mp (by simpa using listed)
              simp [Missing, Misrouted, Unsatisfied, covered, served]

/-- What one route adds to the verdict. -/
theorem judgeRoute_eq {required : List String}
    (spaceless : ∀ domain ∈ required, Spaceless domain) (v : Verdict)
    (route : String × List String) :
    judgeRoute letters ((required.map (norm letters)).filter (· ≠ "")) nameserver v route =
      if LeftOver letters nameserver required route then
        { v with
          stale := v.stale ++ [route.1]
          desiredPatch := v.desiredPatch.put route.1 none }
      else v := by
  have related :
      (((required.map (norm letters)).filter (· ≠ "")).any fun d =>
        covers letters route.1 d || covers letters d route.1) = true ↔
          ∃ domain ∈ required, norm letters domain ≠ "" ∧
            (covers letters route.1 domain = true ∨ covers letters domain route.1 = true) := by
    rw [List.any_eq_true]
    constructor
    · rintro ⟨d, member, either⟩
      rw [List.mem_filter] at member
      rcases List.mem_map.mp member.1 with ⟨domain, required, rfl⟩
      rw [covers_norm_right (spaceless domain required),
        covers_norm_left (spaceless domain required), Bool.or_eq_true] at either
      exact ⟨domain, required, by simpa using member.2, either⟩
    · rintro ⟨domain, required, named, either⟩
      refine ⟨norm letters domain, List.mem_filter.mpr
        ⟨List.mem_map_of_mem required, by simpa using named⟩, ?_⟩
      rwa [covers_norm_right (spaceless domain required),
        covers_norm_left (spaceless domain required), Bool.or_eq_true]
  have same : LeftOver letters nameserver required route ↔
      lists letters nameserver route.2 = true ∧
        ¬∃ domain ∈ required, norm letters domain ≠ "" ∧
          (covers letters route.1 domain = true ∨ covers letters domain route.1 = true) := by
    simp [LeftOver]
  rw [judgeRoute]
  split
  · next unlisted => rw [if_neg fun leftOver => by simp [leftOver.1] at unlisted]
  · next listed =>
      have listed : lists letters nameserver route.2 = true := by simpa using listed
      split
      · next unrelated =>
          rw [if_pos (same.mpr ⟨listed, fun either => by
            rw [related.mpr either] at unrelated
            cases unrelated⟩)]
      · next either =>
          rw [Bool.not_eq_true', Bool.not_eq_false] at either
          rw [if_neg fun leftOver => (same.mp leftOver).2 (related.mp either)]

variable (letters routes nameserver) in
/-- What the loop over the required domains adds. -/
theorem foldl_judgeDomain {required : List String}
    (spaceless : ∀ domain ∈ required, Spaceless domain) (v : Verdict) :
    let judged := required.foldl (judgeDomain letters routes nameserver) v
    judged.missing = v.missing ++ required.filter (Missing letters routes) ∧
      judged.misrouted = v.misrouted ++ required.filter (Misrouted letters routes nameserver) ∧
      judged.stale = v.stale ∧
      ∀ key, judged.desiredPatch.lookup key =
        if key ∈ required ∧ Unsatisfied letters routes nameserver key then
          some (some [nameserver])
        else v.desiredPatch.lookup key := by
  induction required generalizing v with
  | nil => simp
  | cons domain rest induction =>
      rw [List.foldl_cons, judgeDomain_eq (spaceless domain List.mem_cons_self)]
      rcases induction (fun other member => spaceless other (List.mem_cons_of_mem _ member)) _
        with ⟨missing, misrouted, stale, patch⟩
      refine ⟨?_, ?_, stale, fun key => ?_⟩
      · rw [missing, List.filter_cons, List.append_assoc]
        by_cases uncovered : Missing letters routes domain <;> simp [uncovered]
      · rw [misrouted, List.filter_cons, List.append_assoc]
        by_cases elsewhere : Misrouted letters routes nameserver domain <;> simp [elsewhere]
      · rw [patch key]
        by_cases later : key ∈ rest ∧ Unsatisfied letters routes nameserver key
        · rw [if_pos later, if_pos ⟨List.mem_cons_of_mem _ later.1, later.2⟩]
        · rw [if_neg later]
          by_cases unsatisfied : Unsatisfied letters routes nameserver domain
          · rw [if_pos unsatisfied, Dict.lookup_put]
            by_cases same : key = domain
            · subst same
              rw [if_pos rfl, if_pos ⟨List.mem_cons_self, unsatisfied⟩]
            · rw [if_neg same, if_neg fun listed => later
                ⟨(List.mem_cons.mp listed.1).resolve_left same, listed.2⟩]
          · have unlisted : ¬(key ∈ domain :: rest ∧
                Unsatisfied letters routes nameserver key) := by
              rintro ⟨member, named⟩
              rcases List.mem_cons.mp member with rfl | member
              · exact unsatisfied named
              · exact later ⟨member, named⟩
            rw [if_neg unsatisfied, if_neg unlisted]

def leftOvers (letters : Lowering) (nameserver : String) (required : List String)
    (entries : List (String × List String)) : List String :=
  (entries.filter (LeftOver letters nameserver required)).map Prod.fst

variable (letters nameserver) in
/-- What the loop over the routes adds. -/
theorem foldl_judgeRoute {required : List String}
    (spaceless : ∀ domain ∈ required, Spaceless domain)
    (entries : List (String × List String)) (v : Verdict) :
    let judged := entries.foldl
      (judgeRoute letters ((required.map (norm letters)).filter (· ≠ "")) nameserver) v
    judged.missing = v.missing ∧ judged.misrouted = v.misrouted ∧
      judged.stale = v.stale ++ leftOvers letters nameserver required entries ∧
      ∀ key, judged.desiredPatch.lookup key =
        if key ∈ leftOvers letters nameserver required entries then some none
        else v.desiredPatch.lookup key := by
  induction entries generalizing v with
  | nil => simp [leftOvers]
  | cons route rest induction =>
      rw [List.foldl_cons, judgeRoute_eq spaceless]
      by_cases leftOver : LeftOver letters nameserver required route
      · have first : leftOvers letters nameserver required (route :: rest) =
            route.1 :: leftOvers letters nameserver required rest := by
          simp [leftOvers, leftOver]
        rw [if_pos leftOver, first]
        rcases induction { v with
            stale := v.stale ++ [route.1]
            desiredPatch := v.desiredPatch.put route.1 none }
          with ⟨missing, misrouted, stale, patch⟩
        refine ⟨missing, misrouted, by rw [stale]; simp, fun key => ?_⟩
        rw [patch key, Dict.lookup_put]
        by_cases same : key = route.1
        · rw [if_pos same, ite_self, if_pos (List.mem_cons.mpr (.inl same))]
        · have tail : key ∈ route.1 :: leftOvers letters nameserver required rest ↔
              key ∈ leftOvers letters nameserver required rest := by
            rw [List.mem_cons, or_iff_right same]
          rw [if_neg same, if_congr tail rfl rfl]
      · have skipped : leftOvers letters nameserver required (route :: rest) =
            leftOvers letters nameserver required rest := by
          simp [leftOvers, leftOver]
        rw [if_neg leftOver, skipped]
        exact induction v

variable (letters routes nameserver) in
/-- Every field of the verdict, from the routes alone. -/
theorem decide_eq {required : List String}
    (spaceless : ∀ domain ∈ required, Spaceless domain) :
    let verdict := decide letters routes required nameserver
    verdict.missing = required.filter (Missing letters routes) ∧
      verdict.misrouted = required.filter (Misrouted letters routes nameserver) ∧
      verdict.stale = leftOvers letters nameserver required routes.entries ∧
      ∀ key, verdict.desiredPatch.lookup key =
        if key ∈ leftOvers letters nameserver required routes.entries then some none
        else if key ∈ required ∧ Unsatisfied letters routes nameserver key then
          some (some [nameserver])
        else none := by
  rcases foldl_judgeDomain letters routes nameserver spaceless .initial
    with ⟨missing, misrouted, stale, patch⟩
  rcases foldl_judgeRoute letters nameserver spaceless routes.entries
    (required.foldl (judgeDomain letters routes nameserver) .initial)
    with ⟨sameMissing, sameMisrouted, added, patched⟩
  refine ⟨sameMissing.trans missing, sameMisrouted.trans misrouted, ?_, fun key => ?_⟩
  · rw [stale] at added
    exact added
  · refine (patched key).trans ?_
    rw [patch key]
    rfl

/-! ## The routes after the patch -/

/-- A name has what the patch says of it, or else what it had. -/
theorem lookup_applyPatch (patch : Dict String (Option (List String))) (key : String) :
    (applyPatch routes patch).lookup key =
      (patch.lookup key).getD (routes.lookup key) := by
  rcases patch with ⟨entries, distinct⟩
  simp only [applyPatch, Dict.lookup]
  induction entries generalizing routes with
  | nil => rfl
  | cons entry rest induction =>
      rcases entry with ⟨own, change⟩
      rw [List.map_cons, List.nodup_cons] at distinct
      rw [List.foldl_cons, Table.lookup_cons]
      refine (induction distinct.2).trans ?_
      by_cases same : key = own
      · have absent : rest.lookup key = none :=
          List.lookup_eq_none_iff.mpr fun other member => by
            rw [bne_iff_ne]
            intro equal
            exact distinct.1 (same ▸ equal ▸ List.mem_map.mpr ⟨other, member, rfl⟩)
        rw [absent, if_pos same]
        cases change with
        | none => exact (Dict.lookup_pop own key routes).trans (if_pos same)
        | some addrs => exact (Dict.lookup_put own key addrs routes).trans (if_pos same)
      · rw [if_neg same]
        congr 1
        cases change with
        | none => exact (Dict.lookup_pop own key routes).trans (if_neg same)
        | some addrs => exact (Dict.lookup_put own key addrs routes).trans (if_neg same)

variable (letters routes nameserver) in
def repaired (required : List String) : Routes :=
  applyPatch routes (decide letters routes required nameserver).desiredPatch

variable (letters routes nameserver) in
theorem lookup_repaired {required : List String}
    (spaceless : ∀ domain ∈ required, Spaceless domain) (key : String) :
    (repaired letters routes nameserver required).lookup key =
      if key ∈ leftOvers letters nameserver required routes.entries then none
      else if key ∈ required ∧ Unsatisfied letters routes nameserver key then some [nameserver]
      else routes.lookup key := by
  rw [repaired, lookup_applyPatch, (decide_eq letters routes nameserver spaceless).2.2.2]
  split
  · rfl
  · split <;> rfl

theorem mem_leftOvers {required : List String} {key : String}
    (member : key ∈ leftOvers letters nameserver required routes.entries) :
    ∃ addrs, routes.lookup key = some addrs ∧
      LeftOver letters nameserver required (key, addrs) := by
  rcases List.mem_map.mp member with ⟨route, filtered, rfl⟩
  rw [List.mem_filter, decide_eq_true_iff] at filtered
  exact ⟨route.2, (Dict.lookup_eq_some_iff _ _ _).mpr filtered.1, filtered.2⟩

/-- Nothing that covers a required domain is left over. -/
theorem not_mem_leftOvers {required : List String} {domain key : String}
    (member : domain ∈ required) (named : norm letters domain ≠ "")
    (covering : covers letters key domain = true) :
    key ∉ leftOvers letters nameserver required routes.entries := fun listed => by
  rcases mem_leftOvers listed with ⟨addrs, _, _, unrelated⟩
  rw [(unrelated domain member named).1] at covering
  cases covering

theorem lists_self : lists letters nameserver [nameserver] = true := by
  simp [lists]

theorem served_repaired {required : List String}
    (spaceless : ∀ domain ∈ required, Spaceless domain) {domain : String}
    (member : domain ∈ required) (named : norm letters domain ≠ "") :
    Served letters (repaired letters routes nameserver required) nameserver domain := by
  by_cases served : Served letters routes nameserver domain
  · rcases served with ⟨⟨key, addrs⟩, entry, covering, listed⟩
    have kept := lookup_repaired letters routes nameserver spaceless key
    rw [if_neg (not_mem_leftOvers member named covering)] at kept
    split at kept
    · exact ⟨(key, [nameserver]), (Dict.lookup_eq_some_iff _ _ _).mp kept, covering, lists_self⟩
    · rw [(Dict.lookup_eq_some_iff _ _ _).mpr entry] at kept
      exact ⟨(key, addrs), (Dict.lookup_eq_some_iff _ _ _).mp kept, covering, listed⟩
  · have covering : covers letters domain domain = true := covers_self named
    have set := lookup_repaired letters routes nameserver spaceless domain
    rw [if_neg (not_mem_leftOvers member named covering),
      if_pos ⟨member, named, served⟩] at set
    exact ⟨(domain, [nameserver]), (Dict.lookup_eq_some_iff _ _ _).mp set, covering, lists_self⟩

theorem leftOvers_repaired {required : List String}
    (spaceless : ∀ domain ∈ required, Spaceless domain) :
    leftOvers letters nameserver required
      (repaired letters routes nameserver required).entries = [] := by
  apply List.eq_nil_iff_forall_not_mem.mpr
  intro key listed
  rcases mem_leftOvers listed with ⟨addrs, found, leftOver⟩
  rw [lookup_repaired letters routes nameserver spaceless] at found
  split at found
  · cases found
  · next kept =>
      split at found
      · next unsatisfied =>
          have unrelated := (leftOver.2 key unsatisfied.1 unsatisfied.2.1).1
          rw [covers_self unsatisfied.2.1] at unrelated
          cases unrelated
      · apply kept
        refine List.mem_map.mpr ⟨(key, addrs), List.mem_filter.mpr ⟨?_, ?_⟩, rfl⟩
        · exact (Dict.lookup_eq_some_iff _ _ _).mp found
        · exact decide_eq_true leftOver

end Verdict

variable (letters) in
/-- The patch leads to routes the decider has nothing to say about, and touches only what
it has to. -/
theorem repair_converges (routes : Routes) (required : List String) (nameserver : String)
    (spaceless : ∀ domain ∈ required, Spaceless domain) :
    let verdict := decide letters routes required nameserver
    let patched := applyPatch routes verdict.desiredPatch
    let again := decide letters patched required nameserver
    (again.missing = [] ∧ again.misrouted = [] ∧ again.stale = [] ∧
      again.desiredPatch.entries = []) ∧
    (∀ route, verdict.desiredPatch.lookup route = some none →
      ∃ addrs, routes.lookup route = some addrs ∧ lists letters nameserver addrs = true ∧
        ∀ domain ∈ required, norm letters domain ≠ "" →
          covers letters route domain = false ∧ covers letters domain route = false) ∧
    (∀ route, patched.lookup route ≠ routes.lookup route →
      verdict.desiredPatch.lookup route = some none ∨
        (route ∈ required ∧ Unsatisfied letters routes nameserver route)) ∧
    ∀ domain ∈ required, norm letters domain ≠ "" →
      (domain ∈ verdict.missing ∧ domain ∉ verdict.misrouted ∧
        ¬Covered letters routes domain) ∨
      (domain ∉ verdict.missing ∧ domain ∈ verdict.misrouted ∧
        Covered letters routes domain ∧ ¬Served letters routes nameserver domain) ∨
      (domain ∉ verdict.missing ∧ domain ∉ verdict.misrouted ∧
        Served letters routes nameserver domain) := by
  intro verdict patched again
  rcases decide_eq letters routes nameserver spaceless with ⟨missing, misrouted, _, patch⟩
  rcases decide_eq letters patched nameserver spaceless with
    ⟨missingAgain, misroutedAgain, staleAgain, patchAgain⟩
  have served : ∀ domain ∈ required, norm letters domain ≠ "" →
      Served letters patched nameserver domain :=
    fun domain member named => served_repaired spaceless member named
  have tidy : leftOvers letters nameserver required patched.entries = [] :=
    leftOvers_repaired spaceless
  refine ⟨⟨?_, ?_, staleAgain.trans tidy, Dict.entries_eq_nil fun key => ?_⟩, ?_, ?_, ?_⟩
  · refine missingAgain.trans (List.filter_eq_nil_iff.mpr fun domain member => ?_)
    rw [decide_eq_true_iff]
    exact fun missing => missing.2 (covered_of_served (served domain member missing.1))
  · refine misroutedAgain.trans (List.filter_eq_nil_iff.mpr fun domain member => ?_)
    rw [decide_eq_true_iff]
    exact fun misrouted => misrouted.2.2 (served domain member misrouted.1)
  · refine (patchAgain key).trans ?_
    rw [tidy, if_neg List.not_mem_nil, if_neg fun unsatisfied =>
      unsatisfied.2.2 (served key unsatisfied.1 unsatisfied.2.1)]
  · intro route deleted
    rw [patch route] at deleted
    split at deleted
    · next listed => exact mem_leftOvers listed
    · split at deleted <;> cases deleted
  · intro route changed
    rw [patch route]
    have now := lookup_repaired letters routes nameserver spaceless route
    by_cases listed : route ∈ leftOvers letters nameserver required routes.entries
    · exact .inl (if_pos listed)
    · rw [if_neg listed] at now
      by_cases unsatisfied : route ∈ required ∧ Unsatisfied letters routes nameserver route
      · exact .inr unsatisfied
      · rw [if_neg unsatisfied] at now
        exact absurd now changed
  · intro domain member named
    have inMissing : domain ∈ verdict.missing ↔ ¬Covered letters routes domain := by
      rw [missing, List.mem_filter, decide_eq_true_iff, Missing]
      simp [member, named]
    have inMisrouted : domain ∈ verdict.misrouted ↔
        Covered letters routes domain ∧ ¬Served letters routes nameserver domain := by
      rw [misrouted, List.mem_filter, decide_eq_true_iff, Misrouted]
      simp [member, named]
    by_cases covered : Covered letters routes domain
    · by_cases answered : Served letters routes nameserver domain
      · exact .inr (.inr ⟨fun listed => inMissing.mp listed covered,
          fun listed => (inMisrouted.mp listed).2 answered, answered⟩)
      · exact .inr (.inl ⟨fun listed => inMissing.mp listed covered,
          inMisrouted.mpr ⟨covered, answered⟩, covered, answered⟩)
    · exact .inl ⟨inMissing.mpr covered, fun listed => covered (inMisrouted.mp listed).1, covered⟩

/-- The live state of the drift: the route kept the old name, and another one is in the way. -/
def driftedRoutes : Routes :=
  ((Dict.empty.put "old" ["100.64.0.10"]).put "lab.internal." ["10.9.9.9"]).put
    "ts.net." ["199.247.155.53"]

theorem repair_converges_drifted :
    let verdict := decide asciiLowering driftedRoutes ["home.internal", "Lab.Internal"]
      "100.64.0.10"
    let again := decide asciiLowering (applyPatch driftedRoutes verdict.desiredPatch)
      ["home.internal", "Lab.Internal"] "100.64.0.10"
    again.missing = [] ∧ again.misrouted = [] ∧ again.stale = [] ∧
      again.desiredPatch.entries = [] :=
  (repair_converges asciiLowering driftedRoutes ["home.internal", "Lab.Internal"]
    "100.64.0.10" (by decide)).1

end Homelab.SplitDns
