import CallAtlas.Proofs.FileSystem.Canonical
import CallAtlas.Proofs.Lookup.Items

/-!
# Projects answer about their own answers

What a project reports can be asked about again: whatever item it gives out, it answers every
question about it, and so no hierarchy is abandoned on the way. The reason is that its items name
files by paths that are resolved to themselves. This holds of every file that a scan without links
finds below a root without links (`Project.relative_itemOf`), and the root of a project is such a
root unless its own resolution ran into a cycle of links.

- `Project.closed_under_answers`: the statement about projects, for hierarchies of any depth;
- `Project.not_closed_behind_cycle`: behind a cycle of links, the root of a project may stay a link.
  Then an item that the project has just reported lies outside of the project;
- `Grow.exists_exec_visit_of_tellsOf`: a visit that is given answers only fails for want of room.
-/

namespace CallAtlas

/-! ## Growth from answers -/

namespace Grow

variable {σ : Type} {r : Resolver σ} {facts : Facts} {known : Item → Prop}

/-- If each child is found or runs out of stack, the children of a node are found. -/
theorem exists_exec_childrenOf (visit : Item → Grow σ Tree) (relations : List Relation)
    (hvisit : ∀ relation ∈ relations, ∀ g : Growth σ,
      (∃ g', exec (visit relation.item) g = (.error .stackExhausted, g')) ∨
        ∃ t g', exec (visit relation.item) g = (.ok t, g')) (g : Growth σ) :
    ∃ found g', exec (childrenOf visit relations) g = (.ok found, g') := by
  induction relations generalizing g with
  | nil => exact ⟨_, _, exec_childrenOf_nil visit g⟩
  | cons relation rest ih =>
    cases hg : g.exhausted with
    | true => exact ⟨_, _, exec_childrenOf_of_exhausted visit relation rest hg⟩
    | false =>
      rw [exec_childrenOf_cons visit relation rest hg]
      rcases hvisit relation List.mem_cons_self g with ⟨g₁, h₁⟩ | ⟨t, g₁, h₁⟩
      · rw [h₁]
        exact ⟨_, _, rfl⟩
      · obtain ⟨⟨more, missing⟩, g₂, h₂⟩ :=
          ih (fun other h => hvisit other (List.mem_cons_of_mem _ h)) g₁
        rw [h₁]
        simp only [h₂, andThen_ok]
        exact ⟨_, _, rfl⟩

/-- A node is found if its children are. -/
theorem exists_exec_visit_of_children (h : r.TellsOf facts known) {direction : Direction}
    {maxDepth : Option Nat} {room depth : Nat} {item : Item} (hitem : known item)
    (hchildren : ∀ g : Growth σ, ∃ found g',
      exec (childrenOf (visit r direction maxDepth room (depth + 1))
        (facts.related direction item)) g = (.ok found, g')) (g : Growth σ) :
    ∃ t g', exec (visit r direction maxDepth (room + 1) depth item) g = (.ok t, g') := by
  obtain ⟨g₁, -, -, hrun⟩ := exec_visit_of_answers h hitem direction maxDepth room depth g
  rw [hrun]
  split
  · exact ⟨_, _, rfl⟩
  · obtain ⟨found, g₂, hfound⟩ := hchildren g₁
    rw [hfound, andThen_ok]
    exact ⟨_, _, rfl⟩

/-- **A visit that is given answers finds its tree**, if there is room for one level. Induction on
the room: the children may have none, but that is caught at their parent. -/
theorem exists_exec_visit_of_tellsOf (h : r.TellsOf facts known) (direction : Direction)
    (maxDepth : Option Nat) (room depth : Nat) {item : Item} (hitem : known item) (g : Growth σ) :
    ∃ t g', exec (visit r direction maxDepth (room + 1) depth item) g = (.ok t, g') := by
  induction room generalizing depth item g with
  | zero =>
    refine exists_exec_visit_of_children h hitem (fun g => exists_exec_childrenOf _ _ ?_ g) g
    intro relation _ g
    exact .inl ⟨g, exec_visit_zero ..⟩
  | succ room ih =>
    refine exists_exec_visit_of_children h hitem (fun g => exists_exec_childrenOf _ _ ?_ g) g
    intro relation hrelation g
    exact .inr (ih (depth + 1) (h.closed direction item hitem relation hrelation) g)

end Grow

namespace HierarchyPlan

variable {σ : Type} {r : Resolver σ} {facts : Facts} {known : Item → Prop} {plan : HierarchyPlan}

theorem of_make {site : CallSite} {maxDepth : Option Int} {room : Nat}
    (h : make site maxDepth room = .ok plan) :
    plan.room = room ∧ plan.site = site := by
  cases maxDepth with
  | none =>
    cases h
    exact ⟨rfl, rfl⟩
  | some bound =>
    simp only [make] at h
    split at h
    next => cases h
    next hbound =>
      cases h
      exact ⟨rfl, rfl⟩

/-- What is known is grown. -/
theorem exists_tree_growFrom (h : r.TellsOf facts known) (hroom : 0 < plan.room)
    (direction : Direction) {item : Item} (hitem : known item) (state : σ) :
    ∃ t, (plan.growFrom r direction item state).1.tree = some t := by
  obtain ⟨room, hroom⟩ := Nat.exists_eq_succ_of_ne_zero (Nat.ne_of_gt hroom)
  obtain ⟨t, g, hrun⟩ := Grow.exists_exec_visit_of_tellsOf h direction plan.maxDepth room 1 hitem
    { resolver := state }
  unfold Grow.exec at hrun
  refine ⟨plan.site.wrap t, ?_⟩
  rw [growFrom, hroom, hrun]
  rfl

end HierarchyPlan

namespace Project

open FileSystem

variable {fs : FileSystem} {root : Path} {config : ScanConfig} {p : Project} {s : Symbol}

/-! ## Files of items -/

/-- The source files of a project are places, if its root is free of links. -/
theorem isPlace_of_mem_sourceFiles (hproper : fs.Proper) (hlinks : config.followLinks = false)
    (h : indexProject fs root config = .ok p) (hroot : fs.LinkFree p.root.parts) {path : Path}
    (hpath : path ∈ fs.sourceFiles config p.root) : fs.IsPlace path := by
  obtain ⟨hresolved, hdirectory, -⟩ := indexProject_eq_ok_iff.mp h
  obtain ⟨hslash, hstraight, -⟩ := hproper.of_resolve hresolved
  have hstart : fs.IsPlace p.root := isPlace_of_isDirectory hslash ⟨hroot, hstraight⟩ hdirectory
  exact isPlace_of_mem_sourceFilesFrom hproper hlinks hstart hpath

/-- A source file that is named by its path is found under its path from the root. -/
theorem relative_of_mem_sourceFiles (hproper : fs.Proper) (hlinks : config.followLinks = false)
    (h : indexProject fs root config = .ok p) (hroot : fs.LinkFree p.root.parts) {path : Path}
    (hpath : path ∈ fs.sourceFiles config p.root) {f : SourceFile}
    (hread : readSource fs p.root path = .ok f) : p.relative fs path = .ok f.path := by
  have hplace := isPlace_of_mem_sourceFiles hproper hlinks h hroot hpath
  have habsolute : path.isAbsolute = true := by
    rw [Path.isAbsolute, hplace.root]
    rfl
  rw [relative, habsolute, hplace.resolve]
  simp only [(readSource_path_of_mem hpath hread).1]
  rfl

/-- **The file of an item is found.** -/
theorem relative_itemOf (hproper : fs.Proper) (hlinks : config.followLinks = false)
    (h : indexProject fs root config = .ok p) (hroot : fs.LinkFree p.root.parts)
    (hs : s ∈ p.symbols.values) : p.relative fs (p.itemOf s).file = .ok s.file := by
  obtain ⟨path, hpath, f, hread, hsymbol, hfile⟩ := exists_source_of_mem_values h hs
  rw [hfile, hsymbol.file_eq]
  exact relative_of_mem_sourceFiles hproper hlinks h hroot hpath hread

theorem answers_of_declares (hproper : fs.Proper) (hlinks : config.followLinks = false)
    (h : indexProject fs root config = .ok p) (hroot : fs.LinkFree p.root.parts) {item : Item}
    (hitem : p.Declares item) : p.Answers fs item := by
  obtain ⟨s, hs, rfl⟩ := hitem
  exact answers_of_relative h hs (relative_itemOf hproper hlinks h hroot hs)

theorem exists_prepare_of_relative {name file : Path} (h : p.relative fs name = .ok file)
    (offset : Int) : ∃ items, p.prepare fs name offset = .ok items := by
  rw [prepare, h]
  simp only [bind, Except.bind]
  split
  · exact ⟨_, rfl⟩
  · exact ⟨_, rfl⟩

/-! ## Hierarchies -/

/-- A hierarchy is missing exactly if no declaration is found at the call site. -/
theorem grow_eq_none_iff (htells : (p.resolver fs).TellsOf (p.facts fs) p.Declares)
    {plan : HierarchyPlan} (hroom : 0 < plan.room) {items : List Item}
    (hitems : p.prepare fs plan.site.file plan.site.position.start = .ok items)
    (direction : Direction) :
    (plan.grow (p.resolver fs) direction ()).1.tree = none ↔ items = [] := by
  have hanswer := p.prepare_resolver fs plan.site.file plan.site.position.start
  rw [hitems] at hanswer
  cases hcase : items with
  | nil =>
    rw [hcase] at hanswer
    rw [HierarchyPlan.grow_of_nil direction hanswer]
    exact iff_of_true rfl rfl
  | cons item others =>
    rw [hcase] at hanswer hitems
    have hitem : p.Declares item := declares_of_mem_prepare hitems List.mem_cons_self
    obtain ⟨t, ht⟩ := HierarchyPlan.exists_tree_growFrom htells hroom direction hitem ()
    obtain ⟨choice, hgrow, -⟩ := HierarchyPlan.grow_of_cons direction hanswer
    rw [hgrow, ht]
    simp

/-- **A project is closed under its answers.** In a proper file system that does not change, and
without following links, let a project be indexed. If its root is free of links, which is so unless
resolving the root met a cycle of links, every question about an item that the project reports is
answered. A call site in one of its files is then resolved, and for every bound on the depth, if
there is room on the stack at all, a hierarchy is missing exactly if no declaration is found
there. -/
theorem closed_under_answers (hproper : fs.Proper) (hlinks : config.followLinks = false)
    (h : indexProject fs root config = .ok p) :
    (¬fs.MeetsCycle root → fs.LinkFree p.root.parts) ∧
    (fs.LinkFree p.root.parts →
      (∀ file offset items, p.prepare fs file offset = .ok items →
        ∀ item ∈ items, p.Answers fs item) ∧
      (∀ direction item relations, p.expand fs direction item = .ok relations →
        ∀ relation ∈ relations, p.Answers fs relation.item) ∧
      ∀ site maxDepth room plan, site.file ∈ fs.sourceFiles config p.root → 0 < room →
        HierarchyPlan.make site maxDepth room = .ok plan →
          ∃ items, p.prepare fs site.file site.position.start = .ok items ∧
            ∀ direction, (plan.grow (p.resolver fs) direction ()).1.tree = none ↔ items = []) := by
  refine ⟨(hproper.of_resolve (indexProject_eq_ok_iff.mp h).1).2.2, fun hroot => ⟨?_, ?_, ?_⟩⟩
  · intro file offset items hitems item hitem
    exact answers_of_declares hproper hlinks h hroot (declares_of_mem_prepare hitems hitem)
  · intro direction item relations hrelations relation hrelation
    exact answers_of_declares hproper hlinks h hroot (declares_of_mem_expand hrelations hrelation)
  · intro site maxDepth room plan hsite hroom hplan
    obtain ⟨rfl, rfl⟩ := HierarchyPlan.of_make hplan
    obtain ⟨-, -, files, hfiles, -⟩ := indexProject_eq_ok_iff.mp h
    obtain ⟨f, -, hread⟩ := exists_related_of_mem hfiles hsite
    have hfound := relative_of_mem_sourceFiles hproper hlinks h hroot hsite hread
    obtain ⟨items, hitems⟩ := exists_prepare_of_relative hfound plan.site.position.start
    have htells := tellsOf_resolver fun s hs =>
      answers_of_declares hproper hlinks h hroot ⟨s, hs, rfl⟩
    exact ⟨items, hitems, fun direction => grow_eq_none_iff htells hroom hitems direction⟩

/-- A project that is named by a link, and that holds a link to itself. -/
def linked : FileSystem where
  entries := [("w", .directory
    [("link", .link "proj"),
      ("proj", .directory
        [("a.py", .file "from b import g\ndef f():\n    g()\nf()\n".toUTF8),
          ("again", .link "."),
          ("b.py", .file "from a import f\ndef g():\n    f()\n".toUTF8)])])]

/-- The two functions call each other, so that only the stack ends the hierarchy of the call in the
last line. -/
theorem closed_under_answers_linked :
    linked.Proper ∧ ¬linked.MeetsCycle ⟨"/", ["w", "link"]⟩ ∧
      ∃ p items, indexProject linked ⟨"/", ["w", "link"]⟩ {} = .ok p ∧
        p.prepare linked ⟨"/", ["w", "proj", "a.py"]⟩ 33 = .ok items ∧
        items.map Item.name = ["f"] ∧ (∀ item ∈ items, p.Answers linked item) ∧
        ∀ direction,
          ((⟨⟨⟨"/", ["w", "proj", "a.py"]⟩, "f", ⟨4, 0, 33, 34⟩, ⟨4, 0, 33, 34⟩, none⟩,
            none, stackRoom⟩ : HierarchyPlan).grow (p.resolver linked) direction ()).1.tree ≠
            none := by
  have hproper : linked.Proper := by decide +kernel
  have hroot : linked.resolveFrom (linked.root.linkCount + 1) [] [] ["w", "link"] =
      .ok ["w", "proj"] := by cbv
  have hnone : ¬linked.MeetsCycle ⟨"/", ["w", "link"]⟩ := by
    rintro ⟨names, hnames⟩
    cases hroot.symm.trans hnames
  have hfiles : linked.sourceFiles {} ⟨"/", ["w", "proj"]⟩ =
      [⟨"/", ["w", "proj", "a.py"]⟩, ⟨"/", ["w", "proj", "b.py"]⟩] := by
    obtain ⟨entries, hentry, hlisting⟩ : ∃ entries,
        linked.entry? ⟨"/", ["w", "proj"]⟩ = some (.directory entries) ∧
          linked.listing {} ⟨"/", ["w", "proj"]⟩ entries =
            (sortNames ["a.py", "b.py"], sortNames []) := by
      refine ⟨_, rfl, ?_⟩
      rw [listing_eq]
      congr 2
      decide +kernel
    have hsorted : sortNames ["a.py", "b.py"] = ["a.py", "b.py"] :=
      List.mergeSort_of_pairwise (by decide)
    have hnone : sortNames [] = [] := List.mergeSort_nil
    show linked.sourceFilesFrom {} (167 + 1) ⟨"/", ["w", "proj"]⟩ = _
    rw [sourceFilesFrom, hentry]
    simp only [hlisting, hsorted, hnone]
    rfl
  have hcontent : (([⟨"/", ["w", "proj", "a.py"]⟩, ⟨"/", ["w", "proj", "b.py"]⟩] : List Path).mapM
      (readSource linked ⟨"/", ["w", "proj"]⟩)).map (fun files =>
        ((projectOf ⟨"/", ["w", "proj"]⟩ files).prepare linked ⟨"", ["a.py"]⟩ 33).toOption.map
          (·.map Item.name)) = .ok (some ["f"]) := by
    decide +kernel
  rw [← hfiles] at hcontent
  cases hread : (linked.sourceFiles {} ⟨"/", ["w", "proj"]⟩).mapM
      (readSource linked ⟨"/", ["w", "proj"]⟩) with
  | error e =>
    rw [hread] at hcontent
    cases hcontent
  | ok files =>
    rw [hread] at hcontent
    have hp : indexProject linked ⟨"/", ["w", "link"]⟩ {} =
        .ok (projectOf ⟨"/", ["w", "proj"]⟩ files) :=
      indexProject_of_mapM (resolve_of_resolveFrom rfl hroot) (by decide +kernel) hread
    obtain ⟨hfree, hclosed⟩ := closed_under_answers hproper rfl hp
    obtain ⟨hanswers, -, hgrow⟩ := hclosed (hfree hnone)
    have hlisted :
        (⟨"/", ["w", "proj", "a.py"]⟩ : Path) ∈ linked.sourceFiles {} ⟨"/", ["w", "proj"]⟩ := by
      rw [hfiles]
      exact List.mem_cons_self
    obtain ⟨items, hitems, hmissing⟩ := hgrow
      ⟨⟨"/", ["w", "proj", "a.py"]⟩, "f", ⟨4, 0, 33, 34⟩, ⟨4, 0, 33, 34⟩, none⟩ none stackRoom _
        hlisted (by decide) rfl
    have hplace : linked.resolve ⟨"/", ["w", "proj", "a.py"]⟩ = .ok ⟨"/", ["w", "proj", "a.py"]⟩ :=
      resolve_of_canonical rfl rfl ⟨linkFree_of_entryAt? rfl rfl, by decide⟩
    have hnamed : (projectOf ⟨"/", ["w", "proj"]⟩ files).prepare linked ⟨"", ["a.py"]⟩ 33 =
        .ok items := by
      rw [← hitems, prepare, prepare, relative, relative, hplace]
      rfl
    have hnames : items.map Item.name = ["f"] := by
      simp only [Except.map, hnamed] at hcontent
      exact Option.some.inj (Except.ok.inj hcontent)
    refine ⟨hproper, hnone, _, items, hp, hitems, hnames, hanswers _ _ _ hitems, ?_⟩
    intro direction hno
    rw [(hmissing direction).mp hno] at hnames
    cases hnames

/-- A project behind a link that leads to itself. -/
def looped : FileSystem where
  entries := [("w", .directory
    [("dir", .directory [("a.py", .file "def f():\n    pass\nf()\n".toUTF8)]),
      ("loop", .link "loop"), ("real", .link "dir")])]

/-- The names behind the cycle are kept as they are, so the root of the project is a link. What the
project reports below that link is resolved to a file elsewhere. -/
theorem not_closed_behind_cycle :
    looped.Proper ∧ ∃ p item,
      indexProject looped ⟨"/", ["w", "loop", "..", "real"]⟩ {} = .ok p ∧
        p.prepare looped ⟨"", ["a.py"]⟩ 18 = .ok [item] ∧
        p.outgoing looped item = .error (.outside item.file p.root) := by
  have hproper : looped.Proper := by decide +kernel
  have hcycle : looped.resolveFrom (looped.root.linkCount + 1) [] [] ["w", "loop", "..", "real"] =
      .error ["w", "loop", "..", "real"] := by cbv
  have hfind : looped.find ⟨"/", collapse ["w", "loop", "..", "real"]⟩ = .ok ["w", "dir"] := by
    decide +kernel
  have hresolve : looped.resolve ⟨"/", ["w", "loop", "..", "real"]⟩ =
      .ok ⟨"/", collapse ["w", "loop", "..", "real"]⟩ := resolve_of_cycle rfl hcycle hfind
  have hcontent : ((looped.sourceFiles {} ⟨"/", ["w", "real"]⟩).mapM
      (readSource looped ⟨"/", ["w", "real"]⟩)).map (fun files =>
        (projectOf ⟨"/", ["w", "real"]⟩ files).prepare looped ⟨"", ["a.py"]⟩ 18) =
      .ok (.ok [{ file := ⟨"/", ["w", "real", "a.py"]⟩, name := "f", kind := "function",
                  selectionStart := 4 }]) := by
    decide +kernel
  cases hread : (looped.sourceFiles {} ⟨"/", ["w", "real"]⟩).mapM
      (readSource looped ⟨"/", ["w", "real"]⟩) with
  | error e =>
    rw [hread] at hcontent
    cases hcontent
  | ok files =>
    rw [hread] at hcontent
    have hp : indexProject looped ⟨"/", ["w", "loop", "..", "real"]⟩ {} =
        .ok (projectOf ⟨"/", ["w", "real"]⟩ files) :=
      indexProject_of_mapM hresolve (by decide +kernel) hread
    have helsewhere :
        looped.resolve ⟨"/", ["w", "real", "a.py"]⟩ = .ok ⟨"/", ["w", "dir", "a.py"]⟩ :=
      resolve_of_resolveFrom rfl (by cbv)
    refine ⟨hproper, _, _, hp, Except.ok.inj hcontent, ?_⟩
    rw [outgoing, symbolFor, relative, helsewhere]
    rfl

end Project

end CallAtlas
