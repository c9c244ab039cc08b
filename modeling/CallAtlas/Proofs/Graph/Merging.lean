import CallAtlas.Proofs.Graph.Nodes
import CallAtlas.Proofs.Labels
import Mathlib

/-!
# Which tree nodes become one

Tree nodes with the same identifier are drawn as one node. The identifier is made for that: among
absolute files and names without a colon, it says the file, the name and the line of a declaration
and nothing else (`GraphConfig.idOf_eq_iff`). Hence a graph has one node for each declaration of
which some tree node is drawn (`GraphConfig.merges_exactly`).
-/

namespace CallAtlas

/-- What a node declares: a name in a file, on a line. -/
def NodeData.declared (d : NodeData) : Path × String × Int := (d.file, d.name, d.line)

namespace GraphConfig

/-- Identifiers are the same exactly for the same declaration. -/
theorem idOf_eq_iff (config : GraphConfig) {a b : Tree}
    (ha : a.data.file.Normal ∧ a.data.file.isAbsolute = true ∧ ':' ∉ a.data.name.toList)
    (hb : b.data.file.Normal ∧ b.data.file.isAbsolute = true ∧ ':' ∉ b.data.name.toList) :
    config.idOf a = config.idOf b ↔ a.data.declared = b.data.declared := by
  obtain ⟨hnormal, habsolute, hname⟩ := ha
  obtain ⟨hnormal', habsolute', hname'⟩ := hb
  rw [idOf, idOf, NodeData.graphId_eq_iff hname hname',
    hnormal.labelFrom_inj hnormal' habsolute habsolute',
    NodeData.declared, NodeData.declared, Prod.mk.injEq, Prod.mk.injEq]

/-- **Merging is exact.** In a tree with absolute files and names without a colon, two nodes have
the same identifier exactly if they agree on the file, the name and the line. So a graph has exactly
one node for each declaration of which a tree node is drawn, in the order in which they first come
up. -/
theorem merges_exactly (config : GraphConfig) {t : Tree}
    (h : ∀ n ∈ t.walk, n.data.file.Normal ∧ n.data.file.isAbsolute = true ∧
      ':' ∉ n.data.name.toList) :
    (∀ a ∈ t.walk, ∀ b ∈ t.walk, config.idOf a = config.idOf b ↔
      a.data.file = b.data.file ∧ a.data.name = b.data.name ∧
      a.data.selection.line = b.data.selection.line) ∧
    ∃ declared, FirstsOf ((t.walk.filter config.draws).map fun n => n.data.declared) declared ∧
      List.Forall₂ (fun declaration entry =>
        ∃ n ∈ t.walk.filter config.draws, n.data.declared = declaration ∧
          entry = (config.idOf n, { config.nodeOf n with label := entry.2.label }))
        declared (config.graphOf t).nodes.entries := by
  have hids : ∀ a ∈ t.walk, ∀ b ∈ t.walk, config.idOf a = config.idOf b ↔
      a.data.declared = b.data.declared :=
    fun a ha b hb => config.idOf_eq_iff (h a ha) (h b hb)
  have hdrawn : ∀ a ∈ t.walk.filter config.draws, ∀ b ∈ t.walk.filter config.draws,
      config.idOf a = config.idOf b ↔ a.data.declared = b.data.declared :=
    fun a ha b hb => hids a (List.mem_of_mem_filter ha) b (List.mem_of_mem_filter hb)
  obtain ⟨declared, hdeclared, hentries⟩ :=
    Table.forall₂_entries (config.firstsOf_keys t.walk) hdrawn
  refine ⟨fun a ha b hb => ?_, declared, hdeclared, hentries.imp ?_⟩
  · rw [hids a ha b hb, NodeData.declared, NodeData.declared, Prod.mk.injEq, Prod.mk.injEq]
    rfl
  · -- the tree node that gave the graph node has its identifier, and so declares the same
    rintro declaration e ⟨he, m, hm, hid, rfl⟩
    obtain ⟨n, hn, hid', hnode⟩ := exists_of_mem_entries he
    exact ⟨n, hn, (hdrawn n hn m hm).mp (hid'.trans hid.symm), Prod.ext hid'.symm hnode⟩

/-- The data of a node of the example, on line 3. -/
def colonData (i : Int) (file : String) (kind : String) (container : Option String) : NodeData :=
  { id := i, file := Path.ofString file, name := "f", kind, range := ⟨3, 0⟩,
    selection := ⟨3, 4⟩, container }

/-- A function, the method and the class of the same name on its line, and functions in files that
are named almost alike: one has the end of an identifier in its name, the other lies elsewhere under
the same name. -/
def colonTree : Tree :=
  .node (colonData 0 "/w/a.py" "function" none) [
    .node (colonData 1 "/w/a.py" "method" (some "C"))
      [.node (colonData 2 "/w/a.py" "class" none) []],
    .node (colonData 3 "/w/a.py:f:3" "function" none) [],
    .node (colonData 4 "/a.py" "function" none) []]

/-- Four of the five nodes are drawn, as three. -/
theorem merges_exactly_colonTree :
    (∀ n ∈ colonTree.walk, n.data.file.Normal ∧ n.data.file.isAbsolute = true ∧
      ':' ∉ n.data.name.toList) ∧
      let config : GraphConfig := { root := some (Path.ofString "/w") }
      (colonTree.walk.filter config.draws).length = 4 ∧
      (config.graphOf colonTree).nodes.entries.length = 3 := by
  have h : ∀ n ∈ colonTree.walk,
      n.data.file.Normal ∧ n.data.file.isAbsolute = true ∧ ':' ∉ n.data.name.toList := by
    have hpaths :
        ∀ n ∈ colonTree.walk, n.data.file ∈ ["/w/a.py", "/w/a.py:f:3", "/a.py"].map Path.ofString ∧
        n.data.file.isAbsolute = true ∧ ':' ∉ n.data.name.toList := by
      rw [Tree.walk_eq_preorder]
      decide +kernel
    intro n hn
    obtain ⟨hfile, hrest⟩ := hpaths n hn
    obtain ⟨text, -, htext⟩ := List.mem_map.mp hfile
    exact ⟨htext ▸ Path.normal_ofString text, hrest⟩
  obtain ⟨-, declared, hdeclared, hentries⟩ :=
    merges_exactly { root := some (Path.ofString "/w") } h
  have hdrawn : (colonTree.walk.filter
      ({ root := some (Path.ofString "/w") } : GraphConfig).draws).map (fun n => n.data.declared) =
        [(Path.ofString "/w/a.py", "f", 3), (Path.ofString "/w/a.py", "f", 3),
          (Path.ofString "/w/a.py:f:3", "f", 3), (Path.ofString "/a.py", "f", 3)] := by
    rw [Tree.walk_eq_preorder]
    decide +kernel
  rw [hdrawn] at hdeclared
  have hperm :
      declared.Perm [(Path.ofString "/w/a.py", "f", 3), (Path.ofString "/w/a.py:f:3", "f", 3),
      (Path.ofString "/a.py", "f", 3)] := by
    rw [List.perm_ext_iff_of_nodup hdeclared.nodup (by decide +kernel)]
    intro declaration
    rw [hdeclared.mem_iff]
    simp
  refine ⟨h, ?_, ?_⟩
  · have hlength := congrArg List.length hdrawn
    rwa [List.length_map] at hlength
  · rw [← hentries.length_eq, hperm.length_eq]
    rfl

end GraphConfig

end CallAtlas
