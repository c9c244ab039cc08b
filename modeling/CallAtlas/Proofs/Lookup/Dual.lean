import CallAtlas.Proofs.FileSystem.Canonical
import CallAtlas.Proofs.Lookup.Items

/-!
# Callers and callees are dual

The calls of a project relate callers to callees. A hierarchy of outgoing calls follows this
relation from one declaration, a hierarchy of incoming calls follows it backwards from another, and
both stop at their bound on the depth. So a chain of calls from `a` to `b` shows `b` in the one
exactly as deep as it shows `a` in the other, however often the chain comes back to the same
declarations (`Project.shows_dual`). This is so as long as both hierarchies fit on the stack; beyond
it one of them may show what the other does not (`Project.not_dual_beyond_stack`).

A node does not hold its symbol, only a file and a position. That these tell which symbol is meant
rests on two facts: a position in a text determines the offset, and, as is assumed here, a symbol is
recovered from its own item (`Project.Recovers`). Where two declarations share the offset of their
name, only the later is recovered.

- `Chain`: chains of a relation with their length, which can be turned around (`Chain.flip`);
- `Project.exists_follow_iff_chain`: the paths of a hierarchy are the chains of the related symbols;
- `Project.showsAt_iff`: what a hierarchy shows at a depth, said about chains.
-/

namespace CallAtlas

/-! ## Chains -/

/-- Two things are related in a number of steps. -/
inductive Chain {α : Type} (R : α → α → Prop) : Nat → α → α → Prop
  | here (a : α) : Chain R 0 a a
  | step {n : Nat} {a b c : α} : R a b → Chain R n b c → Chain R (n + 1) a c

namespace Chain

variable {α : Type} {R : α → α → Prop} {n : Nat} {a b c : α}

theorem concat (h : Chain R n a b) (hlast : R b c) : Chain R (n + 1) a c := by
  induction h with
  | here a => exact .step hlast (.here c)
  | step hfirst _ ih => exact .step hfirst (ih hlast)

/-- A chain is one of the opposite relation, read backwards. -/
theorem flip (h : Chain R n a b) : Chain (fun x y => R y x) n b a := by
  induction h with
  | here a => exact .here a
  | step hfirst _ ih => exact ih.concat hfirst

end Chain

/-! ## Levels and paths -/

namespace Tree

/-- A node stands as deep as the path to it is long. -/
theorem mem_levelsFrom_iff_descend {t n : Tree} {depth k : Nat} :
    (k, n) ∈ t.levelsFrom depth ↔ ∃ path, t.descend path = some n ∧ k = depth + path.length := by
  induction t using induct generalizing depth k with
  | node d cs ih =>
    rw [levelsFrom, List.mem_cons, levelsFromOfAll_eq_flatMap, List.mem_flatMap]
    constructor
    · rintro (heq | ⟨c, hc, hmem⟩)
      · cases heq
        exact ⟨[], rfl, rfl⟩
      · obtain ⟨path, hpath, rfl⟩ := (ih c hc).mp hmem
        obtain ⟨step, hstep⟩ := List.mem_iff_getElem?.mp hc
        refine ⟨step :: path, ?_, ?_⟩
        · rw [descend, children_node, hstep, Option.bind_some, hpath]
        · rw [List.length_cons]
          omega
    · rintro ⟨path, hpath, rfl⟩
      cases path with
      | nil =>
        cases hpath
        exact .inl rfl
      | cons step path =>
        obtain ⟨c, hstep, hpath⟩ := Option.bind_eq_some_iff.mp hpath
        have hc : c ∈ cs := List.mem_of_getElem? hstep
        refine .inr ⟨c, hc, (ih c hc).mpr ⟨path, hpath, ?_⟩⟩
        rw [List.length_cons]
        omega

/-- The levels below a call site are those of the tree that was put there. -/
theorem mem_levels_wrap_succ {site : CallSite} {t n : Tree} {k : Nat} :
    (k + 1, n) ∈ (site.wrap t).levels ↔ ∃ path, t.descend path = some n ∧ path.length = k := by
  have hlevels : (site.wrap t).levels = (0, site.wrap t) :: t.levelsFrom 1 := by
    simp [CallSite.wrap, levels, levelsFrom, levelsFromOfAll]
  rw [hlevels, List.mem_cons, mem_levelsFrom_iff_descend]
  constructor
  · rintro (heq | ⟨path, hpath, hk⟩)
    · cases heq
    · exact ⟨path, hpath, by omega⟩
  · rintro ⟨path, hpath, rfl⟩
    exact .inr ⟨path, hpath, by omega⟩

end Tree

namespace Project

variable {fs : FileSystem} {root : Path} {config : ScanConfig} {p : Project} {s s' : Symbol}

/-! ## Symbols and their items -/

/-- Every symbol is recovered from its own item. -/
def Recovers (p : Project) (fs : FileSystem) : Prop :=
  ∀ s ∈ p.symbols.values, p.symbolFor fs (p.itemOf s) = .ok s

theorem relative_of_symbolFor {item : Item} (h : p.symbolFor fs item = .ok s) :
    p.relative fs item.file = .ok s.file := by
  obtain ⟨file, hfile, h⟩ := bind_eq_ok_iff.mp h
  split at h
  next hfound =>
    cases h
    have hmem := List.mem_of_getLast? hfound
    have hdeclared : s.file = file ∧ (s.selectionStart : Int) = item.selectionStart := by
      simpa using (List.mem_filter.mp hmem).2
    rw [hfile, hdeclared.1]
  next => cases h

theorem Recovers.answers (hrecovers : p.Recovers fs) (h : indexProject fs root config = .ok p)
    (hs : s ∈ p.symbols.values) : p.Answers fs (p.itemOf s) :=
  answers_of_relative h hs (relative_of_symbolFor (hrecovers s hs))

/-- A symbol is told by the file of its item and the position of its name there. The offsets agree
because both lie within the text of the one file. -/
theorem Recovers.eq_of_position (hrecovers : p.Recovers fs)
    (h : indexProject fs root config = .ok p)
    (hs : s ∈ p.symbols.values) (hs' : s' ∈ p.symbols.values)
    (hfile : (p.itemOf s).file = (p.itemOf s').file)
    (hplace : (p.facts fs).place (p.itemOf s).file (p.itemOf s).selectionStart =
      (p.facts fs).place (p.itemOf s').file (p.itemOf s').selectionStart) : s = s' := by
  have hrelative := relative_of_symbolFor (hrecovers s hs)
  have hrelative' := relative_of_symbolFor (hrecovers s' hs')
  have hfiles : s.file = s'.file := by
    rw [hfile, hrelative'] at hrelative
    exact (Except.ok.inj hrelative).symm
  obtain ⟨path, hpath, f, hread, hsymbol, hsymbol'⟩ := exists_source_of_file_eq h hs hs' hfile
  have hindex : p.sources.get? s.file = some f.index := by
    rw [hsymbol.file_eq]
    exact get?_sources h hpath hread
  have hindex' : p.sources.get? s'.file = some f.index := hfiles ▸ hindex
  rw [place_facts (lineColumn_of_relative hrelative hindex _),
    place_facts (lineColumn_of_relative hrelative' hindex' _)] at hplace
  obtain ⟨hline, hcharacter⟩ := LineColumn.mk.inj hplace
  have hoffset : s.selectionStart = s'.selectionStart :=
    f.index.eq_of_lineAndCharacter_eq hsymbol.selectionStart_le hsymbol'.selectionStart_le
      (Prod.ext (by exact_mod_cast hline) (by exact_mod_cast hcharacter))
  have hfound := hrecovers s hs
  have hfound' := hrecovers s' hs'
  rw [symbolFor_of_relative hrelative] at hfound
  rw [symbolFor_of_relative hrelative'] at hfound'
  simp only [itemOf, hfiles, hoffset] at hfound hfound'
  exact Except.ok.inj (hfound.symm.trans hfound')

/-! ## The calls of a project -/

/-- One symbol calls another, as far as the project can tell. -/
def Calls (p : Project) (caller callee : Symbol) : Prop :=
  caller ∈ p.symbols.values ∧ callee ∈ p.symbols.values ∧
    ∃ call ∈ p.calls, call.caller = caller.id ∧ call.callee? = some callee.id

/-- What is related to a symbol in a direction. -/
def Related (p : Project) : Direction → Symbol → Symbol → Prop
  | .outgoing => p.Calls
  | .incoming => fun callee caller => p.Calls caller callee

theorem Related.mem_values {direction : Direction} (h : p.Related direction s s') :
    s ∈ p.symbols.values ∧ s' ∈ p.symbols.values := by
  cases direction with
  | outgoing => exact ⟨h.1, h.2.1⟩
  | incoming => exact ⟨h.2.1, h.1⟩

theorem id_of_get? (h : indexProject fs root config = .ok p) {id : String}
    (hget : p.symbols.get? id = some s) : s.id = id := by
  obtain ⟨-, -, files, -, hp⟩ := indexProject_eq_ok_iff.mp h
  have hkeyed : Keyed p.symbols := by
    rw [hp]
    exact keyed_symbols p.root files
  exact hkeyed id s (Table.get?_eq_some_iff.mp hget)

/-- A symbol is related to those at the other ends of its calls. -/
theorem related_iff (hs : s ∈ p.symbols.values) {direction : Direction} :
    p.Related direction s s' ↔
      s' ∈ p.symbols.values ∧ ∃ call ∈ p.callsAt s direction, otherEnd direction call =
        some s'.id := by
  cases direction with
  | outgoing =>
    constructor
    · rintro ⟨-, hs', call, hcall, hcaller, hcallee⟩
      exact ⟨hs', call, List.mem_filter.mpr ⟨hcall, by simp [hcaller, hcallee]⟩, hcallee⟩
    · rintro ⟨hs', call, hcall, hcallee⟩
      obtain ⟨hmem, hends⟩ := List.mem_filter.mp hcall
      exact ⟨hs, hs', call, hmem, (of_decide_eq_true hends).1, hcallee⟩
  | incoming =>
    constructor
    · rintro ⟨hs', -, call, hcall, hcaller, hcallee⟩
      exact ⟨hs', call, List.mem_filter.mpr ⟨hcall, decide_eq_true hcallee⟩, congrArg some hcaller⟩
    · rintro ⟨hs', call, hcall, hcaller⟩
      obtain ⟨hmem, hends⟩ := List.mem_filter.mp hcall
      exact ⟨hs', hs, call, hmem, Option.some.inj hcaller, of_decide_eq_true hends⟩

/-- **What an item is related to** are the items of the symbols that its symbol is related to. -/
theorem exists_related_iff (hrecovers : p.Recovers fs) (h : indexProject fs root config = .ok p)
    (hs : s ∈ p.symbols.values) {direction : Direction} {item : Item} :
    (∃ relation ∈ (p.facts fs).related direction (p.itemOf s), relation.item = item) ↔
      ∃ s', p.Related direction s s' ∧ item = p.itemOf s' := by
  rw [related_facts (expand_of_symbolFor (hrecovers s hs) direction), exists_mem_relations_iff]
  constructor
  · rintro ⟨call, hcall, id, s', hkey, hget, rfl⟩
    obtain rfl := id_of_get? h hget
    exact ⟨s', (related_iff hs).mpr ⟨mem_values_of_get? hget, call, hcall, hkey⟩, rfl⟩
  · rintro ⟨s', hrelated, rfl⟩
    obtain ⟨hs', call, hcall, hkey⟩ := (related_iff hs).mp hrelated
    exact ⟨call, hcall, s'.id, s', hkey, get?_id_of_mem_values h hs', rfl⟩

/-- The paths from an item are the chains from its symbol. Induction on the length. -/
theorem exists_follow_iff_chain (hrecovers : p.Recovers fs)
    (h : indexProject fs root config = .ok p)
    {direction : Direction} (length : Nat) (hs : s ∈ p.symbols.values) {item : Item} :
    (∃ path, path.length = length ∧ (p.facts fs).follow direction (p.itemOf s) path = some item) ↔
      ∃ s' ∈ p.symbols.values, Chain (p.Related direction) length s s' ∧ item = p.itemOf s' := by
  induction length generalizing s with
  | zero =>
    constructor
    · rintro ⟨path, hlength, hpath⟩
      rw [List.length_eq_zero_iff.mp hlength] at hpath
      exact ⟨s, hs, .here s, (Option.some.inj hpath).symm⟩
    · rintro ⟨s', -, hchain, rfl⟩
      cases hchain
      exact ⟨[], rfl, rfl⟩
  | succ length ih =>
    constructor
    · rintro ⟨path, hlength, hpath⟩
      cases path with
      | nil => cases hlength
      | cons step path =>
        obtain ⟨relation, hrelation, hpath⟩ := Option.bind_eq_some_iff.mp hpath
        obtain ⟨next, hnext, hitem⟩ := (exists_related_iff hrecovers h hs).mp
          ⟨relation, List.mem_of_getElem? hrelation, rfl⟩
        rw [hitem] at hpath
        obtain ⟨s', hs', hchain, rfl⟩ :=
          (ih hnext.mem_values.2).mp ⟨path, Nat.succ.inj hlength, hpath⟩
        exact ⟨s', hs', .step hnext hchain, rfl⟩
    · rintro ⟨s', hs', hchain, rfl⟩
      cases hchain with
      | step hnext hrest =>
        obtain ⟨relation, hrelation, hitem⟩ :=
          (exists_related_iff hrecovers h hs).mpr ⟨_, hnext, rfl⟩
        obtain ⟨path, hlength, hpath⟩ := (ih hnext.mem_values.2).mpr ⟨s', hs', hrest, rfl⟩
        obtain ⟨step, hstep⟩ := List.mem_iff_getElem?.mp hrelation
        refine ⟨step :: path, by rw [List.length_cons, hlength], ?_⟩
        rw [Facts.follow, hstep, Option.bind_some, hitem, hpath]

/-! ## What a hierarchy shows -/

/-- A node shows a symbol: it holds the file of its item and the position of its name. -/
def IsNodeOf (p : Project) (fs : FileSystem) (n : Tree) (s : Symbol) : Prop :=
  n.data.file = (p.itemOf s).file ∧ ∃ place,
    p.lineColumn fs (p.itemOf s).file (p.itemOf s).selectionStart = .ok place ∧
      n.data.selection = ⟨place.line + 1, place.character⟩

/-- A hierarchy shows a symbol at a depth. -/
def ShowsAt (p : Project) (fs : FileSystem) (t : Tree) (depth : Nat) (s : Symbol) : Prop :=
  ∃ n, (depth, n) ∈ t.levels ∧ p.IsNodeOf fs n s

/-- The root of an unfolding shows its own symbol and no other. -/
theorem isNodeOf_unfolding_iff (hrecovers : p.Recovers fs) (h : indexProject fs root config = .ok p)
    (hs : s ∈ p.symbols.values) (hs' : s' ∈ p.symbols.values) {direction : Direction}
    {levels i : Nat} :
    p.IsNodeOf fs (((p.facts fs).unfolding direction levels (p.itemOf s)).tree i) s' ↔ s = s' := by
  unfold IsNodeOf
  rw [Facts.data_tree_unfolding]
  constructor
  · rintro ⟨hfile, place, hplace, hselection⟩
    refine hrecovers.eq_of_position h hs hs' hfile ?_
    rw [place_facts hplace]
    rcases hfound :
      (p.facts fs).place (p.itemOf s).file (p.itemOf s).selectionStart with ⟨line, character⟩
    simp only [Facts.rootData, Grow.nodeData, hfound, LineColumn.mk.injEq] at hselection
    obtain ⟨hline, rfl⟩ := hselection
    obtain rfl : line = place.line := by omega
    rfl
  · rintro rfl
    obtain ⟨place, hplace⟩ := (hrecovers.answers h hs).selection
    refine ⟨rfl, place, hplace, ?_⟩
    rw [Facts.rootData, place_facts hplace]
    rfl

/-- **What a hierarchy shows** at a depth are the symbols that a chain of this length leads to. -/
theorem showsAt_iff (hrecovers : p.Recovers fs) (h : indexProject fs root config = .ok p)
    {a b : Symbol} (ha : a ∈ p.symbols.values) (hb : b ∈ p.symbols.values) (site : CallSite)
    (direction : Direction) (levels length : Nat) :
    p.ShowsAt fs (site.wrap (((p.facts fs).unfolding direction levels (p.itemOf a)).tree 1))
        (length + 1) b ↔
      length ≤ levels ∧ Chain (p.Related direction) length a b := by
  constructor
  · rintro ⟨n, hlevel, hnode⟩
    obtain ⟨path, hpath, rfl⟩ := Tree.mem_levels_wrap_succ.mp hlevel
    obtain ⟨hlevels, item, j, hfollow, rfl⟩ := Facts.exists_follow_of_descend hpath
    obtain ⟨s, hs, hchain, rfl⟩ :=
      (exists_follow_iff_chain hrecovers h path.length ha).mp ⟨path, rfl, hfollow⟩
    obtain rfl := (isNodeOf_unfolding_iff hrecovers h hs hb).mp hnode
    exact ⟨hlevels, hchain⟩
  · rintro ⟨hlevels, hchain⟩
    obtain ⟨path, rfl, hfollow⟩ :=
      (exists_follow_iff_chain hrecovers h length ha).mpr ⟨b, hb, hchain, rfl⟩
    obtain ⟨j, hpath⟩ := Facts.exists_descend_of_follow 1 hfollow hlevels
    exact ⟨_, Tree.mem_levels_wrap_succ.mpr ⟨path, hpath, rfl⟩,
      (isNodeOf_unfolding_iff hrecovers h hb hb).mpr rfl⟩

theorem exists_levels_of_make {site : CallSite} {bound : Int} {room : Nat} {plan : HierarchyPlan}
    (h : HierarchyPlan.make site (some bound) room = .ok plan) :
    ∃ levels : Nat, bound = levels + 1 := by
  simp only [HierarchyPlan.make] at h
  split at h
  next => cases h
  next hbound => exact ⟨(bound - 1).toNat, by omega⟩

/-- A hierarchy with a bound on the depth unfolds the facts of the project, if they fit on the
stack. -/
theorem growFrom_eq_unfolding (hrecovers : p.Recovers fs) (h : indexProject fs root config = .ok p)
    {site : CallSite} {levels room : Nat} {plan : HierarchyPlan}
    (hplan : HierarchyPlan.make site (some (levels + 1)) room = .ok plan)
    (hs : s ∈ p.symbols.values)
    {direction : Direction} (hfits : (p.facts fs).Fits direction room (levels + 1) (p.itemOf s)) :
    (plan.growFrom (p.resolver fs) direction (p.itemOf s) ()).1.tree =
      some (site.wrap (((p.facts fs).unfolding direction levels (p.itemOf s)).tree 1)) := by
  have hupTo := HierarchyPlan.make_eq_upTo site (Nat.succ_pos levels) room
  cases hupTo.symm.trans hplan
  have htells := tellsOf_resolver fun s hs => hrecovers.answers h hs
  exact HierarchyPlan.growFrom_upTo htells site hfits ⟨s, hs, rfl⟩ ()

/-- **Callers and callees are dual at every depth.** Let every symbol of a project be recovered from
its own item. For all symbols `a` and `b` and every bound on the depth under which what is met fits
on the stack, the hierarchy of outgoing calls of `a` shows `b` at a depth exactly if the hierarchy
of incoming calls of `b` shows `a` at that depth. Below the call site depths start at one. -/
theorem shows_dual (h : indexProject fs root config = .ok p) (hrecovers : p.Recovers fs)
    {a b : Symbol} (ha : a ∈ p.symbols.values) (hb : b ∈ p.symbols.values) {site site' : CallSite}
    {bound : Int} {room room' : Nat} {plan plan' : HierarchyPlan}
    (hplan : HierarchyPlan.make site (some bound) room = .ok plan)
    (hplan' : HierarchyPlan.make site' (some bound) room' = .ok plan')
    (hfits : (p.facts fs).Fits .outgoing room bound.toNat (p.itemOf a))
    (hfits' : (p.facts fs).Fits .incoming room' bound.toNat (p.itemOf b)) :
    ∃ out inc, (plan.growFrom (p.resolver fs) .outgoing (p.itemOf a) ()).1.tree = some out ∧
      (plan'.growFrom (p.resolver fs) .incoming (p.itemOf b) ()).1.tree = some inc ∧
      ∀ depth, 1 ≤ depth → (p.ShowsAt fs out depth b ↔ p.ShowsAt fs inc depth a) := by
  obtain ⟨levels, rfl⟩ := exists_levels_of_make hplan
  refine ⟨_, _, growFrom_eq_unfolding hrecovers h hplan ha hfits,
    growFrom_eq_unfolding hrecovers h hplan' hb hfits', ?_⟩
  intro depth hdepth
  obtain ⟨length, rfl⟩ := Nat.exists_eq_succ_of_ne_zero (Nat.ne_of_gt hdepth)
  rw [showsAt_iff hrecovers h ha hb, showsAt_iff hrecovers h hb ha]
  exact and_congr_right fun _ => ⟨Chain.flip, Chain.flip⟩

/-- What a node shows does not depend on where it was cut. -/
theorem isNodeOf_nodeData_iff (hrecovers : p.Recovers fs) (h : indexProject fs root config = .ok p)
    (hs : s ∈ p.symbols.values) (hs' : s' ∈ p.symbols.values) {direction : Direction} {i : Nat}
    {missing : Bool}
    {n : Tree} (hn : n.data = (p.facts fs).nodeData direction i (p.itemOf s) missing) :
    p.IsNodeOf fs n s' ↔ s = s' := by
  have hroot : p.IsNodeOf fs (((p.facts fs).unfolding direction 0 (p.itemOf s)).tree i) s' ↔
      s = s' :=
    isNodeOf_unfolding_iff hrecovers h hs hs'
  rw [← hroot]
  unfold IsNodeOf
  rw [hn, Facts.data_tree_unfolding]
  rfl

/-! ## Projects of one file -/

/-- A source file in a directory. -/
def oneFile (text : String) : FileSystem where
  entries := [("w", .directory [("a.py", .file text.toUTF8)])]

/-- The path of the file from the directory. -/
def onlyFile : Path := ⟨"", ["a.py"]⟩

theorem resolve_oneFile {text : String} {names : List String} {e : Entry}
    (h : (oneFile text).entryAt? names = some e) (he : e.isLink = false)
    (hnames : Path.checkNames ⟨"/", names⟩ = .ok ()) (hstraight : ".." ∉ names) :
    (oneFile text).resolve ⟨"/", names⟩ = .ok ⟨"/", names⟩ :=
  FileSystem.resolve_of_canonical rfl hnames ⟨FileSystem.linkFree_of_entryAt? h he, hstraight⟩

/-- A project of one file whose symbols stand at different offsets: what is seen of it by reading
the file is true of the project, and its symbols are recovered. -/
theorem exists_project_oneFile (text : String) {α : Type} (view : Project → α) (seen : α)
    (hview : (((oneFile text).sourceFiles {} ⟨"/", ["w"]⟩).mapM
      (readSource (oneFile text) ⟨"/", ["w"]⟩)).map
      (fun files => (view (projectOf ⟨"/", ["w"]⟩ files),
        decide (∀ s ∈ (projectOf ⟨"/", ["w"]⟩ files).symbols.values, s.file = onlyFile ∧
          (projectOf ⟨"/", ["w"]⟩ files).declaredAt? onlyFile s.selectionStart = some s))) =
            .ok (seen, true)) :
    ∃ p, indexProject (oneFile text) ⟨"/", ["w"]⟩ {} = .ok p ∧ view p = seen ∧
    p.Recovers (oneFile text) := by
  cases hread :
    ((oneFile text).sourceFiles {} ⟨"/", ["w"]⟩).mapM (readSource (oneFile text) ⟨"/", ["w"]⟩) with
  | error e =>
    rw [hread] at hview
    cases hview
  | ok files =>
    rw [hread] at hview
    obtain ⟨hseen, hnames⟩ := Prod.mk.inj (Except.ok.inj hview)
    refine ⟨projectOf ⟨"/", ["w"]⟩ files,
      indexProject_of_mapM (resolve_oneFile rfl rfl rfl (by decide)) rfl hread, hseen,
      fun s hs => ?_⟩
    obtain ⟨hsfile, hdeclared⟩ := of_decide_eq_true hnames s hs
    have hitem : ((projectOf ⟨"/", ["w"]⟩ files).itemOf s).file = ⟨"/", ["w", "a.py"]⟩ := by
      rw [itemOf, hsfile]
      rfl
    have hfile : (projectOf ⟨"/", ["w"]⟩ files).relative (oneFile text) ⟨"/", ["w", "a.py"]⟩ =
        .ok onlyFile := by
      rw [relative, resolve_oneFile rfl rfl rfl (by decide)]
      rfl
    rw [symbolFor_of_relative (hitem ▸ hfile)]
    simp only [itemOf, hdeclared]

/-- The items that a symbol is related to, in the order in which they are reported. -/
def relatedItems (p : Project) (direction : Direction) (s : Symbol) : List Item :=
  (p.relations (otherEnd direction) (p.callsAt s direction)).map Relation.item

/-- A function of the file, given by its name, the first and the last line, and the offset of the
definition. -/
def functionAt (name : String) (startLine endLine spanStart : Nat) : Symbol where
  id := "a." ++ name
  kind := .function
  name := name
  qualname := "a." ++ name
  inModule := "a"
  file := onlyFile
  startLine := startLine
  endLine := endLine
  spanStart := spanStart
  selectionStart := spanStart + 4

/-- A function `f` that calls `g`, which calls itself. -/
def chained : String := "def f():\n    g()\ndef g():\n    g()\n"

def chainedF : Symbol := functionAt "f" 1 2 0

def chainedG : Symbol := functionAt "g" 3 4 17

/-- The call of `g` in `f`. -/
def chainedSite : CallSite := ⟨⟨"/", ["w", "a.py"]⟩, "g", ⟨2, 4, 13, 14⟩, ⟨2, 4, 13, 14⟩, some "f"⟩

/-- Three levels down, the calls of `f` show `g` for the second time, and the callers of `g` show
`f`. -/
theorem shows_dual_chained :
    ∃ p plan out inc, indexProject (oneFile chained) ⟨"/", ["w"]⟩ {} = .ok p ∧
      p.Recovers (oneFile chained) ∧
      chainedF ∈ p.symbols.values ∧ chainedG ∈ p.symbols.values ∧
      HierarchyPlan.make chainedSite (some 3) stackRoom = .ok plan ∧
      (p.facts (oneFile chained)).Fits .outgoing stackRoom 3 (p.itemOf chainedF) ∧
      (p.facts (oneFile chained)).Fits .incoming stackRoom 3 (p.itemOf chainedG) ∧
      (plan.growFrom (p.resolver (oneFile chained)) .outgoing (p.itemOf chainedF) ()).1.tree =
        some out ∧
      (plan.growFrom (p.resolver (oneFile chained)) .incoming (p.itemOf chainedG) ()).1.tree =
        some inc ∧
      p.ShowsAt (oneFile chained) out 3 chainedG ∧ p.ShowsAt (oneFile chained) inc 3 chainedF := by
  obtain ⟨p, hp, hseen, hrecovers⟩ := exists_project_oneFile chained
    (fun p => (p.symbols.values.tail, p.calls.map fun c => (c.caller, c.callee?)))
    ([chainedF, chainedG], [("a.f", some "a.g"), ("a.g", some "a.g")]) (by decide +kernel)
  obtain ⟨hsymbols, hcalls⟩ := Prod.mk.inj hseen
  have hF : chainedF ∈ p.symbols.values := List.mem_of_mem_tail (hsymbols ▸ by simp)
  have hG : chainedG ∈ p.symbols.values := List.mem_of_mem_tail (hsymbols ▸ by simp)
  have hcall (caller callee : Symbol) (hcaller : caller ∈ p.symbols.values)
      (hcallee : callee ∈ p.symbols.values)
      (h : (caller.id, some callee.id) ∈ [("a.f", some "a.g"), ("a.g", some "a.g")]) :
      p.Related .outgoing caller callee := by
    rw [← hcalls] at h
    obtain ⟨call, hmem, hends⟩ := List.mem_map.mp h
    obtain ⟨hfrom, hto⟩ := Prod.mk.inj hends
    exact ⟨hcaller, hcallee, call, hmem, hfrom, hto⟩
  have hfits (direction : Direction) (item : Item) :
      (p.facts (oneFile chained)).Fits direction stackRoom 3 item :=
    Facts.fits_of_le (by decide) item
  obtain ⟨out, inc, hout, hinc, hdual⟩ := shows_dual hp hrecovers hF hG
    (HierarchyPlan.make_eq_upTo chainedSite (show 1 ≤ 3 by decide) stackRoom)
    (HierarchyPlan.make_eq_upTo chainedSite (show 1 ≤ 3 by decide) stackRoom)
      (hfits _ _) (hfits _ _)
  have hshown : p.ShowsAt (oneFile chained) out 3 chainedG := by
    have hunfolded := growFrom_eq_unfolding hrecovers hp
      (HierarchyPlan.make_eq_upTo chainedSite (Nat.succ_pos 2) stackRoom) hF (hfits .outgoing _)
    cases hunfolded.symm.trans hout
    refine (showsAt_iff hrecovers hp hF hG chainedSite .outgoing 2 2).mpr ⟨Nat.le_refl 2, ?_⟩
    exact .step (hcall _ _ hF hG (by decide)) (.step (hcall _ _ hG hG (by decide)) (.here _))
  exact ⟨p, _, out, inc, hp, hrecovers, hF, hG, rfl, hfits _ _, hfits _ _, hout, hinc, hshown,
    (hdual 3 (by decide)).mp hshown⟩

/-- A function `f` that calls itself and then `g`, which calls nothing. It is called below as
well. -/
def endless : String := "def f(): f(); g()\ndef g(): pass\nf()\n"

def endlessF : Symbol := functionAt "f" 1 1 0

def endlessG : Symbol := functionAt "g" 2 2 18

/-- The last call in the file. -/
def endlessSite : CallSite := ⟨⟨"/", ["w", "a.py"]⟩, "f", ⟨3, 0, 32, 33⟩, ⟨3, 0, 32, 33⟩, none⟩

/-- **Beyond the stack callers and callees are not dual.** With the usual room and a bound of 1500
levels, the calls of `f` do not show `g` below `f`, although the callers of `g` show `f` there. -/
theorem not_dual_beyond_stack :
    ∃ p plan out inc, indexProject (oneFile endless) ⟨"/", ["w"]⟩ {} = .ok p ∧
      p.Recovers (oneFile endless) ∧
      endlessF ∈ p.symbols.values ∧ endlessG ∈ p.symbols.values ∧
      HierarchyPlan.make endlessSite (some 1500) stackRoom = .ok plan ∧
      (plan.growFrom (p.resolver (oneFile endless)) .outgoing (p.itemOf endlessF) ()).1.tree =
        some out ∧
      (plan.growFrom (p.resolver (oneFile endless)) .incoming (p.itemOf endlessG) ()).1.tree =
        some inc ∧
      ¬p.ShowsAt (oneFile endless) out 2 endlessG ∧ p.ShowsAt (oneFile endless) inc 2 endlessF := by
  obtain ⟨p, hp, hseen, hrecovers⟩ := exists_project_oneFile endless
    (fun p => (p.symbols.values.tail,
      decide (p.relatedItems .outgoing endlessF = [endlessF, endlessG].map p.itemOf ∧
      p.relatedItems .incoming endlessF = (endlessF :: p.symbols.values.take 1).map p.itemOf ∧
      p.relatedItems .incoming endlessG = [p.itemOf endlessF])))
    ([endlessF, endlessG], true) (by decide +kernel)
  obtain ⟨hsymbols, hrelated⟩ := Prod.mk.inj hseen
  obtain ⟨hcallees, hcallers, hcallersG⟩ := of_decide_eq_true hrelated
  have hF : endlessF ∈ p.symbols.values := List.mem_of_mem_tail (hsymbols ▸ by simp)
  have hG : endlessG ∈ p.symbols.values := List.mem_of_mem_tail (hsymbols ▸ by simp)
  have hitems {s : Symbol} (hs : s ∈ p.symbols.values) (direction : Direction) :
      ((p.facts (oneFile endless)).related direction (p.itemOf s)).map Relation.item =
        p.relatedItems direction s := by
    rw [related_facts (expand_of_symbolFor (hrecovers s hs) direction)]
    rfl
  -- In both directions `f` leads to itself first.
  have hcallee : (p.facts (oneFile endless)).SelfFirst .outgoing (p.itemOf endlessF) :=
    Facts.selfFirst_of_items ((hitems hF .outgoing).trans hcallees)
  have hcaller : (p.facts (oneFile endless)).SelfFirst .incoming (p.itemOf endlessF) := by
    obtain ⟨first, rest, hvalues⟩ := List.exists_cons_of_ne_nil (List.ne_nil_of_mem hF)
    rw [hvalues] at hcallers
    exact Facts.selfFirst_of_items ((hitems hF .incoming).trans hcallers)
  obtain ⟨only, honly, hitem⟩ :
      ∃ only, (p.facts (oneFile endless)).related .incoming (p.itemOf endlessG) = [only] ∧
      only.item = p.itemOf endlessF := by
    obtain ⟨only, tail, honly, hitem, htail⟩ :=
      List.map_eq_cons_iff.mp ((hitems hG .incoming).trans hcallersG)
    rw [List.map_eq_nil_iff.mp htail] at honly
    exact ⟨only, honly, hitem⟩
  have htells := tellsOf_resolver fun s hs => hrecovers.answers hp hs
  have hroom :
      ∀ bound ∈ (HierarchyPlan.upTo endlessSite 1500 stackRoom).maxDepth, stackRoom < bound := by
    rintro _ ⟨⟩
    decide
  have hout := HierarchyPlan.growFrom_of_selfFirst htells ⟨_, hF, rfl⟩ hcallee (by decide) hroom ()
  have hinc :=
    HierarchyPlan.growFrom_of_leads htells ⟨_, hG, rfl⟩ honly (hitem ▸ hcaller) (by decide) hroom ()
  refine ⟨p, _, _, _, hp, hrecovers, hF, hG, rfl, hout, hinc, ?_, ?_⟩
  · rintro ⟨n, hlevel, hnode⟩
    obtain ⟨path, hpath, -⟩ := Tree.mem_levels_wrap_succ.mp hlevel
    obtain ⟨j, hdata⟩ := Facts.data_of_mem_lineage (Tree.mem_preorder_iff_descend.mpr ⟨path, hpath⟩)
    exact absurd ((isNodeOf_nodeData_iff hrecovers hp hF hG hdata).mp hnode) (by decide)
  · rw [hitem]
    obtain ⟨j, hdata⟩ := Facts.data_of_mem_lineage (Tree.self_mem_preorder
      ((p.facts (oneFile endless)).lineage .incoming (p.itemOf endlessF) (stackRoom - 2) 2))
    exact ⟨_, Tree.mem_levels_wrap_succ.mpr ⟨[0], rfl, rfl⟩,
      (isNodeOf_nodeData_iff hrecovers hp hF hF hdata).mpr rfl⟩

end Project

end CallAtlas
