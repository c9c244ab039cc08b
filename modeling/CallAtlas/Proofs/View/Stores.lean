import CallAtlas.Proofs.Indexing
import CallAtlas.Proofs.Labels
import CallAtlas.Proofs.Table
import CallAtlas.View.Session
import Mathlib

/-!
# Which trees a store keeps

The trees of call sites are put into a store one after the other, under the paths that they are
served at. What stands under a path is the first tree that came for it (`Sessions.get?_ofTrees`),
and the others are dropped. So it matters that the path says which call it is for: it is known from
the file, the called name and the line of a call site (`CallSite.viewKey_eq_iff_target`), and a
store keeps the first tree for each of these (`Sessions.ofTrees_exact`).
-/

namespace CallAtlas

namespace CallSite

/-- What the view of a call site is for: a name that is called in a file, on a line. -/
def target (site : CallSite) : Path × String × Int := (site.file, site.called, site.position.line)

theorem target_eq_iff {a b : CallSite} : a.target = b.target ↔
    a.file = b.file ∧ a.called = b.called ∧ a.position.line = b.position.line := by
  rw [target, target, Prod.mk.injEq, Prod.mk.injEq]

/-- Views are served at the same path exactly if they are for the same target. -/
theorem viewKey_eq_iff_target {a b : CallSite}
    (ha : a.file.Normal ∧ a.file.isAbsolute = true ∧ '/' ∉ a.called.toList)
    (hb : b.file.Normal ∧ b.file.isAbsolute = true ∧ '/' ∉ b.called.toList) (root : Option Path) :
    a.viewKey root = b.viewKey root ↔ a.target = b.target := by
  obtain ⟨hnormal, habsolute, hcalled⟩ := ha
  obtain ⟨hnormal', habsolute', hcalled'⟩ := hb
  rw [viewKey_eq_iff hcalled hcalled', hnormal.labelFrom_inj hnormal' habsolute habsolute',
    target_eq_iff]

end CallSite

namespace Sessions

/-! ## One tree more -/

theorem keys_add (sessions : Sessions) (key : String) (tree : Tree) :
    (sessions.add key tree).1.keys = if key ∈ sessions.keys then sessions.keys
      else sessions.keys ++ [key] := by
  unfold add Table.contains
  by_cases hkey : key ∈ sessions.keys
  · simp [hkey]
  · simp [hkey, Table.keys_put]

/-- A tree is kept if there was none under its key. -/
theorem get?_add (sessions : Sessions) (key other : String) (tree : Tree) :
    (sessions.add key tree).1.get? other =
      (sessions.get? other).or (if key = other then some { key, full := tree } else none) := by
  unfold add
  split
  next hcontains =>
    have hkey : key ∈ sessions.keys := by simpa [Table.contains] using hcontains
    by_cases heq : key = other
    · obtain ⟨found, hfound⟩ := Table.mem_keys_iff.mp hkey
      rw [← heq, Table.get?_eq_some_iff.mpr hfound, Option.some_or]
    · rw [if_neg heq, Option.or_none]
  next hcontains =>
    have hkey : key ∉ sessions.keys := by simpa [Table.contains] using hcontains
    rw [Table.get?_put]
    by_cases heq : key = other
    · rw [if_pos heq.symm, if_pos heq, Table.get?_eq_none_iff.mpr (heq ▸ hkey), Option.none_or]
    · rw [if_neg (Ne.symm heq), if_neg heq, Option.or_none]

/-! ## All trees -/

variable (trees : List (CallSite × Tree)) (root : Option Path)

theorem ofTrees_concat (e : CallSite × Tree) :
    (ofTrees (trees ++ [e]) root).1 = ((ofTrees trees root).1.add (e.1.viewKey root) e.2).1 := by
  rw [ofTrees, List.foldl_concat]
  rfl

/-- The keys of a store are the first occurrences of the keys that trees came for. Induction from
the last tree on. -/
theorem firstsOf_keys_ofTrees :
    FirstsOf (trees.map fun e => e.1.viewKey root) (ofTrees trees root).1.keys := by
  induction trees using List.reverseRecOn with
  | nil => exact firstsOf_nil
  | append_singleton trees e ih =>
    rw [ofTrees_concat, keys_add, List.map_append, List.map_singleton]
    exact ih.concat (e.1.viewKey root)

/-- **The first tree is kept.** Under a key stands the first tree that came for it, shown as a
whole. -/
theorem get?_ofTrees (key : String) : (ofTrees trees root).1.get? key =
    (trees.find? fun e => e.1.viewKey root = key).map fun e => { key, full := e.2 } := by
  induction trees using List.reverseRecOn with
  | nil => rfl
  | append_singleton trees e ih =>
    rw [ofTrees_concat, get?_add, ih, List.find?_append, Option.map_or]
    congr 1
    by_cases heq : e.1.viewKey root = key
    · simp [heq]
    · simp [heq]

variable {trees}

/-- **Session keys are exact.** For call sites in absolute files that call names without a slash, as
identifiers are: two of them have the same key exactly if they agree on the file, the called name
and the line. So a store has exactly one session for each such triple, in the order in which they
first come up, under the key of its call sites, and it holds the first tree that came for the
triple. -/
theorem ofTrees_exact
    (h : ∀ e ∈ trees, e.1.file.Normal ∧ e.1.file.isAbsolute = true ∧ '/' ∉ e.1.called.toList) :
    (∀ a ∈ trees, ∀ b ∈ trees, a.1.viewKey root = b.1.viewKey root ↔
      a.1.file = b.1.file ∧ a.1.called = b.1.called ∧ a.1.position.line = b.1.position.line) ∧
    ∃ targets, FirstsOf (trees.map fun e => e.1.target) targets ∧
      List.Forall₂ (fun target entry => ∃ site tree,
          trees.find? (fun e => e.1.target = target) = some (site, tree) ∧
            entry = (site.viewKey root, { key := site.viewKey root, full := tree }))
        targets (ofTrees trees root).1.entries := by
  have hkeys : ∀ a ∈ trees, ∀ b ∈ trees, a.1.viewKey root = b.1.viewKey root ↔
      a.1.target = b.1.target :=
    fun a ha b hb => CallSite.viewKey_eq_iff_target (h a ha) (h b hb) root
  obtain ⟨targets, htargets, hentries⟩ :=
    Table.forall₂_entries (firstsOf_keys_ofTrees trees root) hkeys
  refine ⟨fun a ha b hb => (hkeys a ha b hb).trans CallSite.target_eq_iff, targets, htargets,
    hentries.imp ?_⟩
  -- under the key of a target stands the first tree that came for the key, and so for the target
  rintro target ⟨key, s⟩ ⟨hentry, given, hgiven, hgivenKey, rfl⟩
  obtain rfl : given.1.viewKey root = key := hgivenKey
  have hget := Table.get?_eq_some_iff.mpr hentry
  rw [get?_ofTrees, Option.map_eq_some_iff] at hget
  obtain ⟨⟨site, tree⟩, hfind, rfl⟩ := hget
  have hkey : site.viewKey root = given.1.viewKey root := by simpa using List.find?_some hfind
  refine ⟨site, tree, ?_, by rw [hkey]⟩
  rw [← hfind]
  refine List.find?_congr fun e he => ?_
  rw [decide_eq_decide, hkeys e he given hgiven]

/-- A call of `f` on the first line of a file, in some column. -/
def callOfFIn (file : String) (column : Int) : CallSite where
  file := Path.ofString file
  called := "f"
  span := ⟨1, column, column, column + 1⟩
  position := ⟨1, column, column, column + 1⟩

/-- A tree with one node. -/
def oneNode (id : Int) : Tree :=
  .node { id, file := Path.ofString "/w/a.py", name := "f", kind := "function", range := ⟨1, 0⟩,
          selection := ⟨1, 0⟩ } []

/-- Two calls on one line, one in a file of the same name elsewhere, and one in a file that takes
the place of the root.
-/
def fourCalls : List (CallSite × Tree) :=
  [(callOfFIn "/w/a.py" 0, oneNode 0), (callOfFIn "/a.py" 0, oneNode 1),
    (callOfFIn "/w/a.py" 5, oneNode 2), (callOfFIn "/w" 0, oneNode 3)]

/-- The second call on the line gets no view of its own. -/
theorem ofTrees_exact_fourCalls :
    (∀ e ∈ fourCalls, e.1.file.Normal ∧ e.1.file.isAbsolute = true ∧ '/' ∉ e.1.called.toList) ∧
      let sessions := (ofTrees fourCalls (some (Path.ofString "/w"))).1
      sessions.entries.length = 3 ∧
        ∃ s, ("/a.py/f:1", s) ∈ sessions.entries ∧ s.full = oneNode 0 := by
  have h : ∀ e ∈ fourCalls, e.1.file.Normal ∧ e.1.file.isAbsolute = true ∧
      '/' ∉ e.1.called.toList := by
    have hsites : ∀ e ∈ fourCalls, e.1.file ∈ ["/w/a.py", "/a.py", "/w"].map Path.ofString ∧
        e.1.file.isAbsolute = true ∧ '/' ∉ e.1.called.toList := by
      decide +kernel
    intro e he
    obtain ⟨hfile, hrest⟩ := hsites e he
    obtain ⟨text, -, htext⟩ := List.mem_map.mp hfile
    exact ⟨htext ▸ Path.normal_ofString text, hrest⟩
  obtain ⟨-, targets, htargets, hentries⟩ := ofTrees_exact (some (Path.ofString "/w")) h
  have hperm : targets.Perm [(Path.ofString "/w/a.py", "f", 1), (Path.ofString "/a.py", "f", 1),
      (Path.ofString "/w", "f", 1)] := by
    rw [List.perm_ext_iff_of_nodup htargets.nodup (by decide +kernel)]
    intro target
    rw [htargets.mem_iff]
    simp only [fourCalls, callOfFIn, CallSite.target, List.map_cons, List.map_nil, List.mem_cons,
      List.not_mem_nil]
    tauto
  refine ⟨h, ?_, ?_⟩
  · rw [← hentries.length_eq, hperm.length_eq]
    rfl
  · have hmem : (Path.ofString "/w/a.py", "f", (1 : Int)) ∈ targets :=
      hperm.mem_iff.mpr List.mem_cons_self
    obtain ⟨entry, hentry, site, tree, hfind, rfl⟩ := exists_related_of_mem hentries hmem
    have hfirst :
        fourCalls.find? (fun e => e.1.target = (Path.ofString "/w/a.py", "f", (1 : Int))) =
          some (callOfFIn "/w/a.py" 0, oneNode 0) := List.find?_cons_of_pos (by decide +kernel)
    cases hfirst.symm.trans hfind
    have hkey : (callOfFIn "/w/a.py" 0).viewKey (some (Path.ofString "/w")) = "/a.py/f:1" := by
      decide +kernel
    rw [hkey] at hentry
    exact ⟨_, hentry, rfl⟩

end Sessions

end CallAtlas
