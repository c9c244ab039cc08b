import CallAtlas.Proofs.Graph.Nodes
import CallAtlas.Proofs.Growth.Depth
import CallAtlas.Proofs.Growth.Grown
import CallAtlas.Proofs.View.Toggles

/-!
# Links and toggles

In a view a node carries a link if its state promises that a toggle changes something. The promise
is kept in every session over a grown tree and after every sequence of toggles. The argument has
three parts:

- A toggle changes what is shown exactly if it changes the node that it acts on
  (`Tree.replaceFirst?_of_mem`), since identifiers are distinct in every pruning of a tree in which
  they are.
- What a toggle makes of a node can be read off its state (`Tree.Prunes.toggled_eq_self_iff`). Here
  the tree has to be candid: a node with further relations, but without children and without a mark,
  would promise what it cannot give.
- Several tree nodes may be drawn as one, but then state and identifier come from the same tree
  node, so that the link leads to the node whose state it shows.
-/

namespace CallAtlas

namespace Tree

/-! ## What a toggle changes -/

/-- Replacing a node changes the tree exactly if it changes the node. -/
theorem replaceFirst?_of_mem {t n : Tree} (hd : t.Distinct) (hn : n ∈ t.preorder)
    (f : Tree → Tree) :
    ∃ t', replaceFirst? n.id f t = some t' ∧ (t' = t ↔ f n = n) := by
  obtain ⟨around, rfl, hlacks⟩ := exists_within hd hn
  exact ⟨within around (f n), replaceFirst?_within hlacks f, within_inj⟩

/-- **What a state promises**: toggling a node that is shown leaves it as it is exactly if it is a
leaf or cut short. -/
theorem Prunes.toggled_eq_self_iff {full shown : Tree} (h : Prunes full shown)
    (hcandid : full.data.further = true ↔ full.children ≠ [] ∨ full.data.truncated = true) :
    full.toggled shown = shown ↔ shown.state = .leaf ∨ shown.state = .truncated := by
  cases h with
  | @closed d cs hcs =>
    -- a closed node can be opened, and says so
    have hfurther : d.further = true := hcandid.mpr (.inl hcs)
    have hopen : (Tree.node d cs).toggled (.node { d with truncated := false } []) =
        .node d (cs.map Tree.collapsed) := by
      rw [← collapsed_of_ne_nil d hcs, toggled_closed d hcs]
    rw [hopen]
    simp [state, hfurther, hcs]
  | @kept d cs cs' h =>
    by_cases hcs' : cs' = []
    · subst hcs'
      obtain rfl := List.forall₂_nil_right_iff.mp h
      rw [toggled_leaf]
      simp only [children_node, ne_eq, not_true_eq_false, data_node, false_or] at hcandid
      cases hcut : d.truncated with
      | true => simp [state, hcut]
      | false =>
        -- nothing is missing, so there is nothing more to show
        have hfurther : d.further = false := by
          rw [hcut] at hcandid
          simpa using hcandid
        simp [state, hcut, hfurther]
    · rw [toggled_open d hcs']
      simp [state, hcs', Ne.symm hcs']

end Tree

/-! ## Sessions over candid trees -/

namespace Session

/-- A toggle of a node that is shown succeeds, and leaves everything as it is exactly if the node is
a leaf or cut short. -/
theorem toggle_of_mem {s : Session} (hs : s.Sound) (hcandid : s.full.Candid) {n : Tree}
    (hn : n ∈ s.current.preorder) :
    ∃ next, s.toggle n.id = .ok { s with current := next } ∧
      (next = s.current ↔ n.state = .leaf ∨ n.state = .truncated) := by
  obtain ⟨hd, hp⟩ := hs
  obtain ⟨source, hsource, hpn⟩ := hp.exists_of_mem hn
  have hfind : s.full.find? n.id = some source := by
    rw [hpn.id_eq]
    exact Tree.find?_of_mem hd hsource
  obtain ⟨next', hreplace, hsame⟩ := Tree.replaceFirst?_of_mem (hp.distinct hd) hn source.toggled
  rcases toggle_cases ⟨hd, hp⟩ n.id with ⟨hnot, -⟩ | ⟨-, next, hnext, hok, -⟩
  · exact absurd (Tree.mem_ids_iff.mpr ⟨n, hn, rfl⟩) hnot
  · rw [Tree.toggleAt, hfind, Option.bind_some, hreplace] at hnext
    obtain rfl := Option.some.inj hnext
    exact ⟨next', hok, hsame.trans (hpn.toggled_eq_self_iff (hcandid source hsource))⟩

end Session

/-! ## Links in the drawing -/

namespace DotConfig

open Dot

/-- The link that toggles a node. -/
def toggleLink (config : DotConfig) (node : GraphNode) : String :=
  assign "href" (escapeLabel config.baseUrl ++ "?id=" ++ toString node.treeId)

/-- An attribute whose name does not start like that of a link is none. -/
theorem href_ne_assign (name : String) (h : name.toList.head? ≠ some 'h') (url value : String) :
    assign "href" url ≠ assign name value := by
  intro heq
  have hhead : (assign "href" url).toList.head? = (assign name value).toList.head? := by rw [heq]
  simp only [assign, String.toList_append, List.head?_append] at hhead
  cases hname : name.toList.head? with
  | none =>
    rw [hname] at hhead
    simp at hhead
  | some c =>
    rw [hname] at hhead h
    simp only [String.reduceToList, List.head?_cons, Option.some_or] at hhead
    exact h hhead.symm

/-- In a view the link is drawn at the nodes that hide calls or show some. -/
theorem toggleLink_mem_iff {config : DotConfig} (hinteractive : config.interactive = true)
    (node : GraphNode) :
    config.toggleLink node ∈ config.nodeAttributes node ↔
      node.state = .expandable ∨ node.state = .expanded := by
  have hshape := href_ne_assign "shape" (by decide)
  have hlabel := href_ne_assign "label" (by decide)
  have hstyle := href_ne_assign "style" (by decide)
  rw [nodeAttributes, styleAttributes, linkAttributes, if_pos hinteractive, toggleLink]
  cases node.state with
  | leaf => simp [hshape, hlabel]
  | truncated => simp [hshape, hlabel, hstyle]
  | expandable => simp [hinteractive]
  | expanded => simp [hinteractive]

end DotConfig

/-! ## The links of a view -/

namespace Session

/-- **A link is drawn exactly where a toggle does something.** In every session over a grown tree,
after any sequence of toggles, every node of the graph of what is shown carries the link that
toggles its tree node if and only if that toggle succeeds and changes what is shown; where there is
no link, the node is a leaf or cut short, and the toggle succeeds and changes nothing. -/
theorem toggleLink_drawn_iff {σ : Type} {plan : HierarchyPlan} {r : Resolver σ}
    {direction : Direction} {state : σ} {t : Tree}
    (ht : (plan.grow r direction state).1.tree = some t) (key : String)
    (presses : List Int) (graph : GraphConfig) {dot : DotConfig}
    (hinteractive : dot.interactive = true) :
    let s := ({ key, full := t } : Session).after presses
    ∀ node ∈ (graph.graphOf s.current).nodes.values,
      (dot.toggleLink node ∈ dot.nodeAttributes node ↔
        ∃ s', s.toggle node.treeId = .ok s' ∧ s'.current ≠ s.current) ∧
      (dot.toggleLink node ∉ dot.nodeAttributes node →
        (node.state = .leaf ∨ node.state = .truncated) ∧ s.toggle node.treeId = .ok s) := by
  intro s node hnode
  obtain ⟨hsound, hfull⟩ := after_sound (sound_new key (HierarchyPlan.distinct_of_grow ht)) presses
  have hcandid : s.full.Candid := hfull ▸ HierarchyPlan.candid_of_grow ht
  obtain ⟨n, hn, hfrom⟩ := GraphConfig.exists_of_mem_nodes hnode
  have hid : node.treeId = n.id := by rw [hfrom]; rfl
  have hstate : node.state = n.state := by rw [hfrom]; rfl
  obtain ⟨next, htoggle, hsame⟩ := toggle_of_mem hsound hcandid hn
  have hlinked : dot.toggleLink node ∈ dot.nodeAttributes node ↔
      ¬(n.state = .leaf ∨ n.state = .truncated) := by
    rw [DotConfig.toggleLink_mem_iff hinteractive, hstate]
    cases n.state with
    | leaf => simp
    | truncated => simp
    | expandable => simp
    | expanded => simp
  rw [hid, hlinked, ← hsame, hstate]
  refine ⟨⟨fun hchanged => ⟨_, htoggle, hchanged⟩, ?_⟩, ?_⟩
  · rintro ⟨s', hs', hchanged⟩
    obtain rfl := Except.ok.inj (htoggle.symm.trans hs')
    exact hchanged
  · intro hunchanged
    obtain rfl := not_not.mp hunchanged
    exact ⟨hsame.mp rfl, htoggle⟩

/-- The session of the call of `walk`, on two levels, before and after `walk` was closed. -/
def walkSession (closed : Bool) : Session :=
  ({ key := "/walk.py/walk:7", full := HierarchyPlan.walkOnTwoLevels } : Session).after
    (if closed then [1] else [])

/-- A node of its graph. -/
def walkNode (id label : String) (treeId : Int) (state : NodeState) : GraphNode :=
  { id, label, file := {}, treeId, state }

/-- Once `walk` is closed it carries a link, and following it opens `walk` again; before, `step`
carries none, and following the link that it could carry changes nothing. -/
theorem toggleLink_drawn_iff_walk :
    ((HierarchyPlan.upTo HierarchyPlan.callOfWalk 2 stackRoom).grow
        HierarchyPlan.recursive.resolver .outgoing ()).1.tree =
      some HierarchyPlan.walkOnTwoLevels ∧
      (∃ s', (walkSession true).toggle 1 = .ok s' ∧ s'.current ≠ (walkSession true).current) ∧
      (walkSession false).toggle 2 = .ok (walkSession false) := by
  have htree := HierarchyPlan.grow_recursive_two (show 2 ≤ stackRoom by decide)
  have hview : ({ interactive := true } : DotConfig).interactive = true := rfl
  have hlinks (presses : List Int) := toggleLink_drawn_iff htree "/walk.py/walk:7" presses {} hview
  have hclosed : walkNode ".:walk:1" "walk:1" 1 .expandable ∈
      (({} : GraphConfig).graphOf (walkSession true).current).nodes.values := by decide +kernel
  have hleaf : walkNode ".:step:1" "step:1" 2 .leaf ∈
      (({} : GraphConfig).graphOf (walkSession false).current).nodes.values := by decide +kernel
  refine ⟨htree, ((hlinks [1]) _ hclosed).1.mp ?_, (((hlinks []) _ hleaf).2 ?_).2⟩
  · exact (DotConfig.toggleLink_mem_iff hview _).mpr (.inl rfl)
  · rw [DotConfig.toggleLink_mem_iff hview]
    decide

end Session

end CallAtlas
