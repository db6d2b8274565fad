import Homelab.ControlApi.Handler
import Homelab.Effects.Oblivious
import Homelab.Foundation.FileTree

/-! # What the junk cleanup removes

The cleanup looks where a path leads and removes the entry that the path names. These are
one place unless the entry is a link. What it logs is taken off the front of the list it
scanned, as many paths as it removed.
-/

namespace Homelab.ControlApi

open Effects FileTree

/-! ## The scan -/

structure Site where
  cwd : Location
  scanDirs : List String

/-- `JUNK_PATTERNS`, those that are names. -/
def junkNames : List String :=
  [".DS_Store", ".Spotlight-V100", ".fseventsd", ".Trashes", "Thumbs.db", "desktop.ini"]

def isJunk (name : String) : Bool := "._".toList.isPrefixOf name.toList || decide (name ∈ junkNames)

/-- Whether `os.walk` counts an entry among the directories: a link is followed for that. -/
def isDirEntry (tree : Node) (folder : Location) (name : String) : Node → Bool
  | .file _ => false
  | .dir _ => true
  | .link _ => decide ((follow tree linkLimit folder [name]).bind tree.kindAt = some .dir)

/-- `os.path.getsize(path)`, and 0 where that fails. -/
def getSize (tree : Node) (cwd : Location) (path : String) : Nat :=
  match (follow tree linkLimit (origin cwd path) (names path)).bind tree.kindAt with
  | some (.file size) => size
  | _ => 0

/-- The junk among the entries of one directory: `dirs` selects the directories or the rest. -/
def junkEntries (tree : Node) (cwd folder : Location) (root : String) (dirs : Bool) :
    Entries → List Found
  | .nil => []
  | .cons name node rest =>
      let found := if isJunk name && isDirEntry tree folder name node == dirs then
        let path := join root name
        [⟨path, name, if dirs then 0 else getSize tree cwd path, dirs⟩]
      else []
      found ++ junkEntries tree cwd folder root dirs rest

mutual
/-- The junk at and below a directory. Links to directories are not followed, and junk
directories are not looked into. -/
def walk (tree : Node) (cwd folder : Location) (root : String) : Node → List Found
  | .dir entries =>
      junkEntries tree cwd folder root false entries ++
        junkEntries tree cwd folder root true entries ++ walkAll tree cwd folder root entries
  | .file _ => []
  | .link _ => []

def walkAll (tree : Node) (cwd folder : Location) (root : String) : Entries → List Found
  | .nil => []
  | .cons name node rest =>
      (if isJunk name then [] else walk tree cwd (folder ++ [name]) (join root name) node) ++
        walkAll tree cwd folder root rest
end

def scanBase (tree : Node) (cwd : Location) (base : String) : List Found :=
  if base = "" then []
  else
    match follow tree linkLimit (origin cwd base) (names base) with
    | none => []
    | some folder =>
        match tree.get folder with
        | none => []
        | some node => walk tree cwd folder base node

def scan (site : Site) (tree : Node) : List Found := site.scanDirs.flatMap (scanBase tree site.cwd)

/-! ## The disk -/

/-- `real` is where the path leads. Where it leads nowhere, since its links go round in
circles, `os.path.realpath` stops somewhere on the way. -/
def Site.Real (site : Site) (tree : Node) (path : String) (real : Location) : Prop :=
  ∀ location, Leads tree site.cwd path location → real = location

/-- The entries of a disk change by the removals only. A removal that fails removes nothing,
but that of a directory may have removed some of what stands in it. -/
def Site.Step (site : Site) (tree : Node) :
    (operation : Operation) → Reply operation → Node → Prop
  | .scanJunk, found, after => found = scan site tree ∧ after = tree
  | .realpath path, real, after => site.Real tree path real ∧ after = tree
  | .remove path, .ok _, after => ∃ location kind, locate tree site.cwd path = some location ∧
      tree.kindAt location = some kind ∧ kind ≠ .dir ∧ after = tree.erase location
  | .remove _, .error _, after => after = tree
  | .rmtree path, .ok _, after => ∃ location, locate tree site.cwd path = some location ∧
      tree.kindAt location = some .dir ∧ after = tree.erase location
  | .rmtree path, .error _, after => ∃ lost : List Location,
      (∀ erased ∈ lost, ∃ location, locate tree site.cwd path = some location ∧
        tree.kindAt location = some .dir ∧ location <+: erased) ∧
      after = lost.foldl Node.erase tree
  | _, _, after => after = tree

def Site.disk (site : Site) : System interface Node := ⟨site.Step⟩

/-! ## What happened -/

def removedPath : Effects.Moment interface Node → Option String
  | ⟨_, .remove path, .ok _, _⟩ => some path
  | ⟨_, .rmtree path, .ok _, _⟩ => some path
  | _ => none

def removedPaths (moments : List (Effects.Moment interface Node)) : List String :=
  moments.filterMap removedPath

/-- An entry stood there before and does not any more. -/
def Removes (moment : Effects.Moment interface Node) (location : Location) : Prop :=
  moment.before.kindAt location ≠ none ∧ moment.after.kindAt location = none

def isReport : Operation → Bool
  | .audit _ => true
  | .send _ => true
  | _ => false

def reports (moments : List (Effects.Moment interface Node)) : List Operation :=
  (moments.map Effects.Moment.operation).filter isReport

def cleanedResponse (cleaned : Cleaned) : Response :=
  ⟨200, .json (.dict [("status", .str "cleaned"), ("deleted", .int cleaned.deleted),
    ("freed_bytes", .int cleaned.freed), ("errors", .list (cleaned.errors.map fun failed =>
      .dict [("path", .str failed.1), ("error", .str failed.2)]))])⟩

/-- Every entry that is removed stands strictly inside of the real `/srv`. -/
def Contained (site : Site) (start : Node)
    (moments : List (Effects.Moment interface Node)) : Prop :=
  ∀ srv, Leads start site.cwd "/srv" srv → ∀ moment ∈ moments, ∀ location,
    Removes moment location → isInside srv location = true

/-- What the log and the response say is what happened: they tell the number of removals, the
log lists the removed paths, and the other scanned paths are the errors. -/
def ReportsRight (site : Site) (start : Node)
    (moments : List (Effects.Moment interface Node)) : Prop :=
  ∃ line cleaned, reports moments = [.audit line, .send (cleanedResponse cleaned)] ∧
    line.deleted = (removedPaths moments).length ∧
    cleaned.deleted = (removedPaths moments).length ∧
    line.files = removedPaths moments ∧
    (removedPaths moments ++ cleaned.errors.map Prod.fst).Perm ((scan site start).map Found.path)

/-! ## What the cleanup does -/

/-- Only what has been found to lead inside is removed. -/
def Checked (site : Site) (srv : Location) (moment : Effects.Moment interface Node) : Prop :=
  moment.after = moment.before ∨
    ∃ path real, (moment.operation = .remove path ∨ moment.operation = .rmtree path) ∧
      isInside srv real = true ∧ site.Real moment.before path real

/-- The files that are done have been removed or are among the errors, and nothing has been
reported yet. -/
structure Swept (done : List Found) (cleaned : Cleaned) (past : Past interface Node) : Prop where
  count : (removedPaths past).length = cleaned.deleted
  split : (removedPaths past ++ cleaned.errors.map Prod.fst).Perm (done.map Found.path)
  silent : reports past = []

section

variable {site : Site} {srv : Location} {done : List Found} {cleaned : Cleaned}
  {past : Past interface Node} {world : Node}

theorem Swept.quiet {moment : Effects.Moment interface Node} (swept : Swept done cleaned past)
    (keeps : removedPath moment = none) (unsaid : isReport moment.operation = false) :
    Swept done cleaned (moment :: past) where
  count := by simpa [removedPaths, keeps] using swept.count
  split := by simpa [removedPaths, keeps] using swept.split
  silent := by simpa [reports, unsaid] using swept.silent

theorem Swept.failed {file : Found} {text : String} (swept : Swept done cleaned past) :
    Swept (done ++ [file])
      { cleaned with errors := cleaned.errors ++ [(file.path, text)] } past where
  count := swept.count
  split := by
    have more := swept.split.append_right [file.path]
    simpa using more
  silent := swept.silent

theorem Swept.removed {file : Found} {moment : Effects.Moment interface Node}
    (swept : Swept done cleaned past) (removes : removedPath moment = some file.path)
    (unsaid : isReport moment.operation = false) :
    Swept (done ++ [file]) ⟨cleaned.deleted + 1, cleaned.freed + file.size, cleaned.errors⟩
      (moment :: past) where
  count := by simpa [removedPaths, removes] using swept.count
  split := by
    have more := (swept.split.cons file.path).trans (List.perm_append_singleton _ _).symm
    simpa [removedPaths, removes] using more
  silent := by simpa [reports, unsaid] using swept.silent

theorem cleanFile_swept (file : Found) (swept : Swept done cleaned past) :
    Attempt.Guarded site.disk (fun _ moment => Checked site srv moment)
      (fun past _ cleaned => Swept (done ++ [file]) cleaned past) (fun _ _ _ => False)
      (cleanFile srv cleaned file) past world := by
  unfold cleanFile ask
  rw [Attempt.call_bind]
  intro real tree step
  rcases step with ⟨leads, same⟩
  subst same
  refine ⟨.inl rfl, ?_⟩
  have looked : Swept done cleaned (⟨tree, .realpath file.path, real, tree⟩ :: past) :=
    swept.quiet rfl rfl
  by_cases inside : isInside srv real = true
  · rw [if_pos inside]
    cases kind : file.isDir with
    | true =>
        rw [if_pos rfl, Attempt.call_bind]
        intro answer after step
        refine ⟨.inr ⟨file.path, real, .inr rfl, inside, leads⟩, ?_⟩
        cases answer with
        | ok _ => exact Attempt.pure_iff.mpr (looked.removed rfl rfl)
        | error text => exact Attempt.pure_iff.mpr (looked.quiet rfl rfl).failed
    | false =>
        rw [if_neg Bool.false_ne_true, Attempt.call_bind]
        intro answer after step
        refine ⟨.inr ⟨file.path, real, .inl rfl, inside, leads⟩, ?_⟩
        cases answer with
        | ok _ => exact Attempt.pure_iff.mpr (looked.removed rfl rfl)
        | error text => exact Attempt.pure_iff.mpr (looked.quiet rfl rfl).failed
  · rw [if_neg inside]
    exact Attempt.pure_iff.mpr looked.failed

theorem cleanFiles_swept (files : List Found) (swept : Swept done cleaned past) :
    Attempt.Guarded site.disk (fun _ moment => Checked site srv moment)
      (fun past _ cleaned => Swept (done ++ files) cleaned past) (fun _ _ _ => False)
      (cleanFiles srv cleaned files) past world := by
  induction files generalizing done cleaned past world with
  | nil => exact Attempt.pure_iff.mpr (by simpa using swept)
  | cons file rest induction =>
      rw [cleanFiles]
      apply Attempt.bind (cleanFile_swept file swept)
      intro past world cleaned swept
      simpa using induction swept

end

/-- The cleanup as a whole: it logs as many of the scanned paths as it removed, from the
front. -/
def Finished (site : Site) (start : Node) (past : Past interface Node) : Prop :=
  ∃ line cleaned, reports past = [.send (cleanedResponse cleaned), .audit line] ∧
    line.deleted = cleaned.deleted ∧ cleaned.deleted = (removedPaths past).length ∧
    line.files = ((scan site start).take cleaned.deleted).map Found.path ∧
    (removedPaths past ++ cleaned.errors.map Prod.fst).Perm ((scan site start).map Found.path)

theorem junkClean_guarded (site : Site) (start : Node) :
    Attempt.Guarded site.disk
      (fun _ moment => ∀ srv, Leads start site.cwd "/srv" srv → Checked site srv moment)
      (fun past _ _ => Finished site start past) (fun _ _ _ => False) junkClean [] start := by
  unfold junkClean ntfy sendJson ask
  rw [Attempt.call_bind]
  intro files tree scanned
  rcases scanned with ⟨found, same⟩
  subst found same
  refine ⟨fun _ _ => .inl rfl, ?_⟩
  rw [Attempt.call_bind]
  intro srvReal tree step
  rcases step with ⟨real, same⟩
  subst same
  refine ⟨fun _ _ => .inl rfl, ?_⟩
  have before : Swept [] ⟨0, 0, []⟩ [⟨tree, .realpath "/srv", srvReal, tree⟩,
      ⟨tree, .scanJunk, scan site tree, tree⟩] := ⟨rfl, .nil, rfl⟩
  apply Attempt.bind
  · apply Effects.Guarded.mono (cleanFiles_swept (scan site tree) before)
    · intro _ moment checked srv leads
      rw [← real srv leads]
      exact checked
    · exact fun _ _ _ holds => holds
  · intro past world cleaned swept
    rw [List.nil_append] at swept
    rw [Attempt.call_bind]
    intro _ after step
    have same : after = world := step
    subst same
    refine ⟨fun _ _ => .inl rfl, ?_⟩
    rw [Attempt.call_bind]
    intro _ last step
    have same : last = after := step
    subst same
    refine ⟨fun _ _ => .inl rfl, ?_⟩
    rw [Attempt.lift_iff]
    intro _ final step
    have same : final = last := step
    subst same
    refine ⟨fun _ _ => .inl rfl, ⟨cleaned.deleted, cleaned.freed, cleaned.errors.length,
      ((scan site tree).take cleaned.deleted).map Found.path⟩, cleaned, ?_, rfl, ?_, rfl, ?_⟩
    · exact congrArg (fun earlier : List Operation => _ :: _ :: earlier) swept.silent
    · exact swept.count.symm
    · exact swept.split

theorem junk_clean_finished {site : Site} {start final : Node}
    {moments : List (Effects.Moment interface Node)} {outcome : Except Exception Unit}
    (execution : Executes site.disk junkClean.run start moments final (some outcome)) :
    Finished site start moments.reverse := by
  have ends := (junkClean_guarded site start).result execution
  rw [List.append_nil] at ends
  cases outcome with
  | ok _ => exact ends
  | error _ => exact ends.elim

/-! ## Inside and right -/

/-- No removed path is that of a link that stands outside of the real `/srv`: the check looks
at what such a link leads to. -/
def NoLinkOutside (site : Site) (start : Node)
    (moments : List (Effects.Moment interface Node)) : Prop :=
  ∀ srv, Leads start site.cwd "/srv" srv → ∀ moment ∈ moments, ∀ path location target,
    removedPath moment = some path → locate moment.before site.cwd path = some location →
    moment.before.kindAt location = some (.link target) → isInside srv location = true

theorem isInside_below {srv location below : Location} (inside : isInside srv location = true)
    (more : location <+: below) : isInside srv below = true := by
  simp only [isInside, Bool.and_eq_true, List.isPrefixOf_iff_prefix, decide_eq_true_eq] at inside ⊢
  refine ⟨inside.1.trans more, fun same => ?_⟩
  subst same
  exact inside.2 (more.eq_of_length_le inside.1.length_le)

/-- What stands at the path that was checked is inside, unless it is a link. -/
theorem inside_of_real {site : Site} {tree : Node} {srv real location : Location} {path : String}
    (inside : isInside srv real = true) (leads : site.Real tree path real)
    (located : locate tree site.cwd path = some location)
    (noLink : ∀ target, tree.kindAt location ≠ some (.link target)) :
    isInside srv location = true := by
  rw [← leads location (leads_of_locate located noLink)]
  exact inside

theorem contained_of_no_link {site : Site} {tree after : Node} {srv location : Location}
    {operation : Operation} {answer : Reply operation}
    (step : site.Step tree operation answer after)
    (checked : Checked site srv ⟨tree, operation, answer, after⟩)
    (noLink : ∀ path location target,
      removedPath ⟨tree, operation, answer, after⟩ = some path →
      locate tree site.cwd path = some location → tree.kindAt location = some (.link target) →
      isInside srv location = true)
    (removes : Removes ⟨tree, operation, answer, after⟩ location) :
    isInside srv location = true := by
  rcases removes with ⟨stood, gone⟩
  rcases checked with same | ⟨path, real, which, inside, leads⟩
  · have same : after = tree := same
    rw [same] at gone
    exact absurd gone stood
  · rcases which with which | which
    · have which : operation = .remove path := which
      subst which
      cases answer with
      | error text =>
          have same : after = tree := step
          rw [same] at gone
          exact absurd gone stood
      | ok _ =>
          rcases step with ⟨erased, kind, located, kindIs, _, same⟩
          subst same
          apply isInside_below _ (Node.below_erased (locate_ne_nil located) stood gone)
          by_cases link : ∃ target, kind = .link target
          · rcases link with ⟨target, rfl⟩
            exact noLink path erased target rfl located kindIs
          · apply inside_of_real inside leads located
            intro target isLink
            rw [kindIs] at isLink
            exact link ⟨target, Option.some.inj isLink⟩
    · have which : operation = .rmtree path := which
      subst which
      have dirInside : ∀ erased, locate tree site.cwd path = some erased →
          tree.kindAt erased = some .dir → isInside srv erased = true := by
        intro erased located dir
        exact inside_of_real inside leads located (by simp [dir])
      cases answer with
      | ok _ =>
          rcases step with ⟨erased, located, dir, same⟩
          subst same
          exact isInside_below (dirInside erased located dir)
            (Node.below_erased (locate_ne_nil located) stood gone)
      | error text =>
          rcases step with ⟨lost, each, same⟩
          subst same
          have some_ : ∀ erased ∈ lost, erased ≠ [] := by
            intro erased member none_
            rcases each erased member with ⟨folder, located, _, below⟩
            rw [none_, List.prefix_nil] at below
            exact locate_ne_nil located below
          rcases Node.below_one_erased some_ stood gone with ⟨erased, member, below⟩
          rcases each erased member with ⟨folder, located, dir, under⟩
          exact isInside_below (dirInside folder located dir) (under.trans below)

/-- A link whose removal succeeds is removed where it stands. -/
theorem removes_link {site : Site} {tree after : Node} {location : Location}
    {operation : Operation} {answer : Reply operation} {path target : String}
    (step : site.Step tree operation answer after)
    (removed : removedPath ⟨tree, operation, answer, after⟩ = some path)
    (located : locate tree site.cwd path = some location)
    (link : tree.kindAt location = some (.link target)) :
    Removes ⟨tree, operation, answer, after⟩ location := by
  refine ⟨by simp [link], ?_⟩
  cases operation with
  | remove named =>
      cases answer with
      | error text => cases removed
      | ok _ =>
          have same : named = path := Option.some.inj removed
          subst same
          rcases step with ⟨erased, kind, locatedHere, _, _, same⟩
          rw [located] at locatedHere
          rcases Option.some.inj locatedHere with rfl
          subst same
          exact Node.erased_gone (locate_ne_nil located)
  | rmtree named =>
      cases answer with
      | error text => cases removed
      | ok _ =>
          have same : named = path := Option.some.inj removed
          subst same
          rcases step with ⟨erased, locatedHere, dir, _⟩
          rw [located] at locatedHere
          rcases Option.some.inj locatedHere with rfl
          rw [link] at dir
          cases dir
  | _ => cases removed

theorem contained_iff {site : Site} {start final : Node}
    {moments : List (Effects.Moment interface Node)}
    {outcome : Option (Except Exception Unit)}
    (execution : Executes site.disk junkClean.run start moments final outcome) :
    Contained site start moments ↔ NoLinkOutside site start moments := by
  constructor
  · intro contained srv leads moment member path location target removed located link
    have step := execution.steps moment member
    exact contained srv leads moment member location (removes_link step removed located link)
  · intro noLink srv leads moment member location removes
    have step := execution.steps moment member
    rcases List.append_of_mem member with ⟨earlier, later, split⟩
    have checked := (junkClean_guarded site start).moment_good execution split srv leads
    exact contained_of_no_link step checked (noLink srv leads moment member) removes

theorem reports_right_iff {site : Site} {start final : Node}
    {moments : List (Effects.Moment interface Node)} {outcome : Except Exception Unit}
    (execution : Executes site.disk junkClean.run start moments final (some outcome)) :
    ReportsRight site start moments ↔
      removedPaths moments <+: (scan site start).map Found.path := by
  rcases junk_clean_finished execution with ⟨line, cleaned, said, same, count, files, split⟩
  have reversed : removedPaths moments.reverse = (removedPaths moments).reverse :=
    List.filterMap_reverse
  have saidInOrder : reports moments = [.audit line, .send (cleanedResponse cleaned)] := by
    have backwards : reports moments.reverse = (reports moments).reverse := by
      simp [reports, List.filter_reverse]
    rw [backwards, List.reverse_eq_iff] at said
    exact said
  rw [reversed] at count split
  rw [List.length_reverse] at count
  have logged : line.files =
      ((scan site start).map Found.path).take (removedPaths moments).length := by
    rw [files, count, List.map_take]
  constructor
  · rintro ⟨line', cleaned', said', _, _, files', _⟩
    rw [saidInOrder] at said'
    have lines : line = line' := by
      have heads := (List.cons.inj said').1
      exact Operation.audit.inj heads
    rw [← lines, logged] at files'
    exact List.prefix_iff_eq_take.mpr files'.symm
  · intro first
    refine ⟨line, cleaned, saidInOrder, same.trans count, count, ?_, ?_⟩
    · rw [logged]
      exact (List.prefix_iff_eq_take.mp first).symm
    · exact ((List.reverse_perm _).symm.append_right _).trans split

/-- The cleanup stays inside of the real `/srv` and reports what it did in just the runs in
which it removes no link outside, and in which no removal succeeds after one that did not. -/
theorem junk_clean_iff (site : Site) (start final : Node)
    (moments : List (Effects.Moment interface Node))
    (outcome : Except Exception Unit)
    (execution : Executes site.disk junkClean.run start moments final (some outcome)) :
    (Contained site start moments ∧ ReportsRight site start moments) ↔
      (NoLinkOutside site start moments ∧
        removedPaths moments <+: (scan site start).map Found.path) :=
  and_congr (contained_iff execution) (reports_right_iff execution)

/-! ## A failure before a success

Two entries are junk: a file in `/srv`, and a link to it that stands elsewhere.
-/

theorem Site.real_of_follow {site : Site} {tree : Node} {path : String} {real : Location}
    (links : Nat) (leads : follow tree links (origin site.cwd path) (names path) = some real) :
    site.Real tree path real :=
  fun _ other => Leads.unique ⟨links, leads⟩ other

def linkedSite : Site := ⟨[], ["/srv", "/mnt"]⟩

def srvFolder : Node := .dir (.cons "._a" (.file 5) .nil)

def linkedTree : Node :=
  .dir (.cons "srv" srvFolder (.cons "mnt" (.dir (.cons "._l" (.link "/srv/._a") .nil)) .nil))

def linkedScan : List Found :=
  [⟨"/srv/._a", "._a", 5, false⟩, ⟨"/mnt/._l", "._l", 5, false⟩]

theorem Site.tells (site : Site) (tree : Node) (notice : Notice) :
    site.disk.Step tree (.ntfy notice) () tree := rfl

theorem Site.sends (site : Site) (tree : Node) (response : Response) :
    site.disk.Step tree (.send response) () tree := rfl

theorem Site.logs (site : Site) (tree : Node) (line : Audit) :
    site.disk.Step tree (.audit line) () tree := rfl

/-- What is left when the link is gone. -/
def unlinkedTree : Node :=
  .dir (.cons "srv" srvFolder (.cons "mnt" (.dir .nil) .nil))

/-- The removal of the file fails, that of the link outside succeeds, and the log says that
the file has been removed. -/
theorem logs_what_failed :
    ∃ moments, Executes linkedSite.disk junkClean.run linkedTree moments unlinkedTree
        (some (.ok ())) ∧
      removedPaths moments = ["/mnt/._l"] ∧
      (∃ line, .audit line ∈ asked moments ∧ line.files = ["/srv/._a"]) ∧
      ¬ ReportsRight linkedSite linkedTree moments ∧
      ¬ Contained linkedSite linkedTree moments := by
  have scans : linkedSite.disk.Step linkedTree .scanJunk linkedScan linkedTree :=
    ⟨by decide +kernel, rfl⟩
  have looksSrv : linkedSite.disk.Step linkedTree (.realpath "/srv") ["srv"] linkedTree :=
    ⟨Site.real_of_follow 0 (by decide +kernel), rfl⟩
  have looksFile : linkedSite.disk.Step linkedTree (.realpath "/srv/._a") ["srv", "._a"]
      linkedTree := ⟨Site.real_of_follow 0 (by decide +kernel), rfl⟩
  have fails : linkedSite.disk.Step linkedTree (.remove "/srv/._a") (.error "denied")
      linkedTree := rfl
  have looksLink : linkedSite.disk.Step linkedTree (.realpath "/mnt/._l") ["srv", "._a"]
      linkedTree := ⟨Site.real_of_follow 1 (by decide +kernel), rfl⟩
  have removes : linkedSite.disk.Step linkedTree (.remove "/mnt/._l") (.ok ()) unlinkedTree :=
    ⟨["mnt", "._l"], .link "/srv/._a", by decide +kernel, by decide +kernel, by decide, rfl⟩
  have runs : ∃ moments, Executes linkedSite.disk junkClean.run linkedTree moments unlinkedTree
        (some (.ok ())) ∧ removedPaths moments = ["/mnt/._l"] ∧
      (∃ line, .audit line ∈ asked moments ∧ line.files = ["/srv/._a"]) ∧
      ⟨linkedTree, .remove "/mnt/._l", .ok (), unlinkedTree⟩ ∈ moments := by
    refine ⟨_, .call scans (.call looksSrv (.call looksFile (.call fails (.call looksLink
      (.call removes (.call (Site.logs _ _ _) (.call (Site.tells _ _ _) (.call (Site.sends _ _ _)
        (.done _ _))))))))), rfl,
      ⟨⟨1, 5, 1, ["/srv/._a"]⟩, ?_, rfl⟩, ?_⟩
    · simp only [asked, List.map_cons, List.mem_cons]
      exact .inr (.inr (.inr (.inr (.inr (.inr (.inl rfl))))))
    · simp only [List.mem_cons, true_or, or_true]
  rcases runs with ⟨moments, execution, removed, logged, unlinks⟩
  refine ⟨moments, execution, removed, logged, ?_, ?_⟩
  · intro right
    have first := (reports_right_iff execution).mp right
    rw [removed] at first
    exact absurd first (by decide +kernel)
  · intro contained
    have srv : Leads linkedTree linkedSite.cwd "/srv" ["srv"] := ⟨0, by decide +kernel⟩
    have inside := contained ["srv"] srv _ unlinks ["mnt", "._l"]
      ⟨by decide +kernel, by decide +kernel⟩
    exact absurd inside (by decide +kernel)

theorem junk_clean_iff_in_order :
    ∃ moments, Executes linkedSite.disk junkClean.run unlinkedTree moments
        (unlinkedTree.erase ["srv", "._a"]) (some (.ok ())) ∧
      Contained linkedSite unlinkedTree moments ∧ ReportsRight linkedSite unlinkedTree moments := by
  have scans : linkedSite.disk.Step unlinkedTree .scanJunk [⟨"/srv/._a", "._a", 5, false⟩]
      unlinkedTree := ⟨by decide +kernel, rfl⟩
  have looksSrv : linkedSite.disk.Step unlinkedTree (.realpath "/srv") ["srv"] unlinkedTree :=
    ⟨Site.real_of_follow 0 (by decide +kernel), rfl⟩
  have looksFile : linkedSite.disk.Step unlinkedTree (.realpath "/srv/._a") ["srv", "._a"]
      unlinkedTree := ⟨Site.real_of_follow 0 (by decide +kernel), rfl⟩
  have removes : linkedSite.disk.Step unlinkedTree (.remove "/srv/._a") (.ok ())
      (unlinkedTree.erase ["srv", "._a"]) :=
    ⟨["srv", "._a"], .file 5, by decide +kernel, by decide +kernel, by decide, rfl⟩
  have runs : ∃ moments, Executes linkedSite.disk junkClean.run unlinkedTree moments
      (unlinkedTree.erase ["srv", "._a"]) (some (.ok ())) ∧ removedPaths moments = ["/srv/._a"] ∧
      ∀ moment ∈ moments, moment.before = unlinkedTree ∨ removedPath moment = none := by
    refine ⟨_, .call scans (.call looksSrv (.call looksFile (.call removes
      (.call (Site.logs _ _ _) (.call (Site.tells _ _ _) (.call (Site.sends _ _ _)
        (.done _ _))))))), rfl, ?_⟩
    simp only [List.forall_mem_cons]
    exact ⟨.inl trivial, .inl trivial, .inl trivial, .inl trivial, .inr rfl, .inr rfl, .inr rfl,
      by simp⟩
  rcases runs with ⟨moments, execution, removed, before⟩
  refine ⟨moments, execution, (junk_clean_iff linkedSite unlinkedTree _ moments (.ok ())
    execution).mpr ⟨?_, ?_⟩⟩
  · intro srv leads moment member path location target gone located link
    rcases before moment member with same | none_
    · have listed : path ∈ removedPaths moments := List.mem_filterMap.mpr ⟨moment, member, gone⟩
      rw [removed, List.mem_singleton] at listed
      have here : locate unlinkedTree linkedSite.cwd "/srv/._a" = some ["srv", "._a"] := by
        decide +kernel
      rw [same, listed, here] at located
      rcases Option.some.inj located with rfl
      have kind : unlinkedTree.kindAt ["srv", "._a"] = some (.file 5) := by decide +kernel
      rw [same, kind] at link
      cases link
    · rw [none_] at gone
      cases gone
  · rw [removed]
    decide +kernel

end Homelab.ControlApi
