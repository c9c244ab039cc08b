import CallAtlas.Proofs.Pruning

/-!
# The algebra of toggles

A toggle acts on one node of what is shown and leaves everything around it as it is. The
surroundings of a node are a list of frames, one for each node above it (`Tree.within`), and
whatever is put in the place of the node, a toggle there changes that and not the frames
(`Tree.Prunes.exists_toggleAt`). So two toggles of one node are read off the node alone: closed
nodes come back as they were, and open ones come back with all their children, each closed.

Toggles of two nodes that do not lie below each other meet at the deepest node above both. From
there on they act on different children, so their order does not matter
(`Tree.Prunes.toggleAt_comm`).

`Session.toggle_toggle` puts this together for every session that toggles lead to.
-/

namespace CallAtlas

namespace Tree

/-! ## Surroundings -/

/-- What surrounds a subtree at the node above it: the data of that node, and the subtrees beside
it. -/
structure Frame where
  data : NodeData
  left : List Tree
  right : List Tree

/-- A tree in its surroundings, the outermost frame first. -/
def within : List Frame → Tree → Tree
  | [], t => t
  | f :: around, t => .node f.data (f.left ++ within around t :: f.right)

/-- In the same surroundings only the same trees give the same whole. -/
theorem within_inj {around : List Frame} {t u : Tree} :
    within around t = within around u ↔ t = u := by
  induction around with
  | nil => rfl
  | cons f around ih =>
    rw [within, within, ← ih]
    simp

/-- The walk meets an identifier neither at the node of a frame nor before it comes to the
subtree. -/
def Frame.Lacks (f : Frame) (i : Int) : Prop := f.data.id ≠ i ∧ ∀ t ∈ f.left, i ∉ t.ids

/-- In a tree with distinct identifiers the surroundings of a node lack its identifier. Induction on
the tree; below a child everything beside that child becomes a frame. -/
theorem exists_within {t n : Tree} (hd : t.Distinct) (hn : n ∈ t.preorder) :
    ∃ around, t = within around n ∧ ∀ f ∈ around, f.Lacks n.id := by
  induction t using induct with
  | node d cs ih =>
    rcases mem_preorder_iff.mp hn with rfl | ⟨c, hc, hnc⟩
    · exact ⟨[], rfl, List.forall_mem_nil _⟩
    · obtain ⟨hroot, hin, hout⟩ := distinct_node_iff.mp hd
      have hid : n.id ∈ c.ids := mem_ids_iff.mpr ⟨n, hnc, rfl⟩
      obtain ⟨around, rfl, hlacks⟩ := ih c hc (hin c hc) hnc
      obtain ⟨as, bs, rfl⟩ := List.append_of_mem hc
      refine ⟨⟨d, as, bs⟩ :: around, rfl, List.forall_mem_cons.mpr ⟨⟨?_, ?_⟩, hlacks⟩⟩
      · intro heq
        exact hroot _ hc (heq ▸ hid)
      · intro a ha hia
        have hdisjoint : List.Disjoint a.ids (within around n).ids :=
          (List.pairwise_append.mp hout).2.2 a ha _ List.mem_cons_self
        exact hdisjoint hia hid

/-- Replacing a node leaves its surroundings as they are. -/
theorem replaceFirst?_within {around : List Frame} {n : Tree} (h : ∀ f ∈ around, f.Lacks n.id)
    (g : Tree → Tree) :
    replaceFirst? n.id g (within around n) = some (within around (g n)) := by
  induction around with
  | nil =>
    obtain ⟨d, cs⟩ := n
    show replaceFirst? d.id g (.node d cs) = some (g (.node d cs))
    rw [replaceFirst?_node, if_pos rfl]
  | cons f around ih =>
    obtain ⟨⟨hdata, hleft⟩, hrest⟩ := List.forall_mem_cons.mp h
    have hpass : ∀ t ∈ f.left, replaceFirst? n.id g t = none := fun t ht =>
      replaceFirst?_eq_none g (hleft t ht)
    rw [within, replaceFirst?_node, if_neg hdata, replaceFirstOfAll?_append hpass,
      replaceFirstOfAll?, ih hrest]
    rfl

/-! ## One node, toggled twice -/

/-- A pruning leaves out identifiers and adds none. -/
theorem Prunes.ids_sublist {full shown : Tree} (h : Prunes full shown) :
    shown.ids.Sublist full.ids := by
  induction full using induct generalizing shown with
  | node d cs ih =>
    cases h with
    | closed d h => simp
    | @kept _ _ cs' h =>
      rw [ids_node, ids_node]
      refine .cons_cons d.id ?_
      induction h with
      | nil => exact .refl _
      | @cons c c' cs cs' hc _ ihs =>
        rw [List.flatMap_cons, List.flatMap_cons]
        exact (ih c List.mem_cons_self hc).append (ihs fun c hc => ih c (List.mem_cons_of_mem _ hc))

theorem Prunes.distinct {full shown : Tree} (hd : full.Distinct) (h : Prunes full shown) :
    shown.Distinct :=
  List.Nodup.sublist h.ids_sublist hd

theorem id_toggled (source shown : Tree) : (source.toggled shown).id = shown.id := by
  unfold toggled
  split
  · rfl
  · rfl

/-- A node that shows no children comes back as it was. -/
theorem Prunes.toggled_toggled_of_nil {full shown : Tree} (h : Prunes full shown)
    (hshown : shown.children = []) :
    full.toggled (full.toggled shown) = shown := by
  cases h with
  | @closed d cs hcs =>
    have hopened : cs.map Tree.collapsed ≠ [] := by simpa using hcs
    rw [← collapsed_of_ne_nil d hcs, toggled_closed d hcs, toggled_open d hopened,
      collapsed_of_ne_nil d hcs]
  | @kept d cs cs' h =>
    obtain rfl : cs' = [] := hshown
    obtain rfl := List.forall₂_nil_right_iff.mp h
    rw [toggled_leaf, toggled_leaf]

/-- A node that shows children comes back with all of them, each closed, and with its flag. -/
theorem Prunes.toggled_toggled_of_ne_nil {full shown : Tree} (h : Prunes full shown)
    (hshown : shown.children ≠ []) :
    full.toggled (full.toggled shown) = full.opened := by
  cases h with
  | closed d hcs => exact absurd rfl hshown
  | @kept d cs cs' h =>
    have hcs' : cs' ≠ [] := hshown
    have hcs : cs ≠ [] := fun hnil => hcs' (List.forall₂_nil_left_iff.mp (hnil ▸ h))
    rw [toggled_open d hcs', ← collapsed_of_ne_nil d hcs, toggled_closed d hcs]
    rfl

/-- **A toggle acts at one place**: there it turns any node with this identifier into what the node
of the whole tree makes of it, and the surroundings stay. -/
theorem Prunes.exists_toggleAt {full shown n : Tree} (hd : full.Distinct) (h : Prunes full shown)
    (hn : n ∈ shown.preorder) :
    ∃ around source, source ∈ full.preorder ∧ Prunes source n ∧ shown = within around n ∧
      ∀ m, m.id = n.id →
      Tree.toggleAt full (within around m) n.id = some (within around (source.toggled m)) := by
  obtain ⟨around, hwithin, hlacks⟩ := exists_within (h.distinct hd) hn
  obtain ⟨source, hsource, hp⟩ := h.exists_of_mem hn
  refine ⟨around, source, hsource, hp, hwithin, fun m hm => ?_⟩
  have hfind : full.find? n.id = some source := by
    rw [hp.id_eq]
    exact find?_of_mem hd hsource
  rw [Tree.toggleAt, hfind, Option.bind_some, ← hm]
  exact replaceFirst?_within (hm ▸ hlacks) source.toggled

/-! ## Two nodes, toggled in either order -/

/-- One node of a tree is an ancestor of another: the other lies in one of its children. -/
def IsAncestor (t : Tree) (i j : Int) : Prop :=
  ∃ n ∈ t.preorder, n.id = i ∧ ∃ c ∈ n.children, j ∈ c.ids

instance (t : Tree) (i j : Int) : Decidable (t.IsAncestor i j) :=
  inferInstanceAs (Decidable (∃ n ∈ t.preorder, n.id = i ∧ ∃ c ∈ n.children, j ∈ c.ids))

theorem IsAncestor.of_child {t c : Tree} {i j : Int} (hc : c ∈ t.children) (h : c.IsAncestor i j) :
    t.IsAncestor i j := by
  obtain ⟨n, hn, hrest⟩ := h
  exact ⟨n, mem_preorder_of_mem_children hc hn, hrest⟩

/-- A node that is no ancestor of another is not the root, which lies above everything else. -/
theorem mem_below_of_not_isAncestor {d : NodeData} {cs : List Tree} {i j : Int} (hne : i ≠ j)
    (hi : i ∈ (Tree.node d cs).ids) (hj : j ∈ (Tree.node d cs).ids)
    (h : ¬(Tree.node d cs).IsAncestor i j) :
    i ∈ cs.flatMap ids := by
  rw [ids_node, List.mem_cons] at hi hj
  refine hi.resolve_left fun hroot => ?_
  obtain ⟨c, hc, hjc⟩ := List.mem_flatMap.mp (hj.resolve_left fun heq => hne (hroot.trans heq.symm))
  exact h ⟨_, self_mem_preorder _, hroot.symm, c, hc, hjc⟩

section Places

variable {R : Tree → Tree → Prop} {ts us : List Tree} {k : Nat} {t u : Tree}

theorem exists_getElem?_of_forall₂ (h : List.Forall₂ R ts us) (hu : us[k]? = some u) :
    ∃ t, ts[k]? = some t ∧ R t u := by
  induction h generalizing k with
  | nil => cases hu
  | cons htu _ ih =>
    cases k with
    | zero =>
      cases hu
      exact ⟨_, rfl, htu⟩
    | succ k => exact ih hu

theorem forall₂_set (h : List.Forall₂ R ts us) (ht : ts[k]? = some t) (htu : R t u) :
    List.Forall₂ R ts (us.set k u) := by
  induction h generalizing k with
  | nil => cases ht
  | cons hfirst hrest ih =>
    cases k with
    | zero =>
      cases ht
      exact .cons htu hrest
    | succ k => exact .cons hfirst (ih ht)

theorem eq_take_append_drop_of_getElem? (h : ts[k]? = some t) :
    ts = ts.take k ++ t :: ts.drop (k + 1) := by
  obtain ⟨hk, rfl⟩ := List.getElem?_eq_some_iff.mp h
  rw [List.getElem_cons_drop, List.take_append_drop]

end Places

/-- A toggle acts on a node that is shown, and leads from a pruning to a pruning. -/
theorem Prunes.of_toggleAt {full shown next : Tree} {i : Int} (hd : full.Distinct)
    (h : Prunes full shown)
    (hnext : Tree.toggleAt full shown i = some next) : i ∈ shown.ids ∧ Prunes full next := by
  by_cases hi : i ∈ shown.ids
  · obtain ⟨next', hnext', hp⟩ := h.toggleAt hd hi
    obtain rfl := Option.some.inj (hnext'.symm.trans hnext)
    exact ⟨hi, hp⟩
  · obtain ⟨source, -, hreplace⟩ := Option.bind_eq_some_iff.mp hnext
    rw [replaceFirst?_eq_none _ hi] at hreplace
    cases hreplace

/-- A toggle below the child at a place is a toggle of that child. -/
theorem toggleAt_set {d : NodeData} {cs cs' : List Tree} {k : Nat} {c c' next : Tree} {i : Int}
    (hd : (Tree.node d cs).Distinct) (h : List.Forall₂ Prunes cs cs') (hc : cs[k]? = some c)
    (hc' : cs'[k]? = some c') (hp : Prunes c c') (hnext : toggleAt c c' i = some next) :
    toggleAt (.node d cs) (.node d cs') i = some (.node d (cs'.set k next)) ∧
      List.Forall₂ Prunes cs (cs'.set k next) := by
  obtain ⟨hi, hpn⟩ := hp.of_toggleAt (hd.child (List.mem_of_getElem? hc)) hnext
  refine ⟨?_, forall₂_set h hc hpn⟩
  obtain ⟨hk, -⟩ := List.getElem?_eq_some_iff.mp hc'
  have hcut := eq_take_append_drop_of_getElem? hc
  have hcut' := eq_take_append_drop_of_getElem? hc'
  have hset : cs'.set k next = cs'.take k ++ next :: cs'.drop (k + 1) := by
    rw [List.set_eq_take_append_cons_drop, if_pos hk]
  rw [hcut] at hd
  have hchild : toggleAt (.node d (cs.take k ++ c :: cs.drop (k + 1)))
      (.node d (cs'.take k ++ c' :: cs'.drop (k + 1))) i =
        some (.node d (cs'.take k ++ next :: cs'.drop (k + 1))) :=
    toggleAt_child hd rfl (List.forall₂_take k h) (hp.ids_subset hi) hnext
  rwa [← hcut, ← hcut', ← hset] at hchild

/-- A node that is shown below the root is shown below the child at some place. -/
theorem exists_place {cs cs' : List Tree} (h : List.Forall₂ Prunes cs cs') {i : Int}
    (hi : i ∈ cs'.flatMap ids) :
    ∃ (k : Nat) (c c' : Tree), cs[k]? = some c ∧ cs'[k]? = some c' ∧ Prunes c c' ∧ i ∈ c'.ids := by
  obtain ⟨c', hc', hic⟩ := List.mem_flatMap.mp hi
  obtain ⟨k, hk'⟩ := List.mem_iff_getElem?.mp hc'
  obtain ⟨c, hk, hp⟩ := exists_getElem?_of_forall₂ h hk'
  exact ⟨k, c, c', hk, hk', hp, hic⟩

/-- **The order of toggles** does not matter at two nodes of which neither lies below the other.
Induction on the tree: as long as both lie below the same child nothing happens elsewhere, and once
they do not, each leaves the child of the other as it is. -/
theorem Prunes.toggleAt_comm {full shown : Tree} (hd : full.Distinct)
    (h : Prunes full shown) {i j : Int}
    (hne : i ≠ j) (hi : i ∈ shown.ids) (hj : j ∈ shown.ids) (hij : ¬shown.IsAncestor i j)
    (hji : ¬shown.IsAncestor j i) :
    ∃ a b next, Tree.toggleAt full shown i = some a ∧ Tree.toggleAt full shown j = some b ∧
      Tree.toggleAt full a j = some next ∧ Tree.toggleAt full b i = some next := by
  induction full using induct generalizing shown with
  | node d cs ih =>
    cases h with
    | closed d h =>
      simp only [ids_node, List.flatMap_nil, List.mem_singleton] at hi hj
      exact absurd (hi.trans hj.symm) hne
    | @kept _ _ cs' h =>
      obtain ⟨k, c, c', hk, hk', hp, hic⟩ :=
        exists_place h (mem_below_of_not_isAncestor hne hi hj hij)
      obtain ⟨l, e, e', hl, hl', hq, hje⟩ :=
        exists_place h (mem_below_of_not_isAncestor hne.symm hj hi hji)
      have hc : c ∈ cs := List.mem_of_getElem? hk
      have he : e ∈ cs := List.mem_of_getElem? hl
      by_cases hkl : k = l
      · subst hkl
        obtain rfl : c = e := Option.some.inj (hk.symm.trans hl)
        obtain rfl : c' = e' := Option.some.inj (hk'.symm.trans hl')
        have hc' : c' ∈ cs' := List.mem_of_getElem? hk'
        have hplace (x : Tree) : (cs'.set k x)[k]? = some x :=
          List.getElem?_set_self (List.getElem?_eq_some_iff.mp hk').1
        obtain ⟨a, b, next, ha, hb, hnext, hnext'⟩ := ih c hc (hd.child hc) hp hic hje
          (fun hbad => hij (.of_child hc' hbad)) (fun hbad => hji (.of_child hc' hbad))
        obtain ⟨hfirst, hall⟩ := toggleAt_set hd h hk hk' hp ha
        obtain ⟨hfirst', hall'⟩ := toggleAt_set hd h hk hk' hp hb
        have hpa : Prunes c a := (hp.of_toggleAt (hd.child hc) ha).2
        have hpb : Prunes c b := (hp.of_toggleAt (hd.child hc) hb).2
        refine ⟨_, _, .node d (cs'.set k next), hfirst, hfirst', ?_, ?_⟩
        · rw [(toggleAt_set hd hall hk (hplace a) hpa hnext).1, List.set_set]
        · rw [(toggleAt_set hd hall' hk (hplace b) hpb hnext').1, List.set_set]
      · obtain ⟨a, ha, -⟩ := hp.toggleAt (hd.child hc) hic
        obtain ⟨b, hb, -⟩ := hq.toggleAt (hd.child he) hje
        obtain ⟨hfirst, hall⟩ := toggleAt_set hd h hk hk' hp ha
        obtain ⟨hfirst', hall'⟩ := toggleAt_set hd h hl hl' hq hb
        -- each child is still in its place after the toggle of the other
        have hl'' : (cs'.set k a)[l]? = some e' := by rw [List.getElem?_set_ne hkl, hl']
        have hk'' : (cs'.set l b)[k]? = some c' := by rw [List.getElem?_set_ne (Ne.symm hkl), hk']
        refine ⟨_, _, .node d ((cs'.set k a).set l b), hfirst, hfirst', ?_, ?_⟩
        · exact (toggleAt_set hd hall hl hl'' hq hb).1
        · rw [(toggleAt_set hd hall' hk hk'' hp ha).1, List.set_comm _ _ hkl]

end Tree

/-! ## Sessions -/

namespace Session

/-- A toggle of what is shown is one of the session. -/
theorem toggle_of_toggleAt {s : Session} (hs : s.Sound) {i : Int} {next : Tree}
    (h : s.full.toggleAt s.current i = some next) :
    s.toggle i = .ok { s with current := next } ∧ ({ s with current := next } : Session).Sound := by
  obtain ⟨hi, hp⟩ := hs.2.of_toggleAt hs.1 h
  rcases toggle_cases hs i with ⟨hnot, -⟩ | ⟨-, next', hnext, hok, -⟩
  · exact absurd hi hnot
  · obtain rfl := Option.some.inj (hnext.symm.trans h)
    exact ⟨hok, hs.1, hp⟩

/-- Two toggles of what is shown are two of the session. -/
theorem toggle_bind_toggle {s : Session} (hs : s.Sound) {i j : Int} {first next : Tree}
    (h : s.full.toggleAt s.current i = some first) (h' : s.full.toggleAt first j = some next) :
    (s.toggle i >>= (·.toggle j)) = .ok { s with current := next } := by
  obtain ⟨hok, hfirst⟩ := toggle_of_toggleAt hs h
  rw [hok]
  exact (toggle_of_toggleAt hfirst h').1

/-- **The algebra of toggles.** Over a tree with distinct identifiers and after any sequence of
toggles: toggles of two nodes that are shown, of which neither is an ancestor of the other, lead to
the same in either order; two toggles of a node that shows no children change nothing; and two
toggles of a node that shows children leave it with the data and all the children of the whole tree,
each child closed, in the same surroundings. -/
theorem toggle_toggle (key : String) {full : Tree} (hd : full.Distinct) (presses : List Int) :
    let s := ({ key, full } : Session).after presses
    (∀ i ∈ s.current.walk.map Tree.id, ∀ j ∈ s.current.walk.map Tree.id, ¬s.current.IsAncestor i j →
      ¬s.current.IsAncestor j i →
      ∃ next, (s.toggle i >>= (·.toggle j)) = .ok { s with current := next } ∧
        (s.toggle j >>= (·.toggle i)) = .ok { s with current := next }) ∧
    (∀ n ∈ s.current.walk, n.children = [] → (s.toggle n.id >>= (·.toggle n.id)) = .ok s) ∧
    ∀ n ∈ s.current.walk, n.children ≠ [] → ∃ around, s.current = Tree.within around n ∧
      ∃ source ∈ full.walk, source.id = n.id ∧ (s.toggle n.id >>= (·.toggle n.id)) = .ok
        { s with current :=
          Tree.within around (.node source.data (source.children.map Tree.collapsed)) } := by
  intro s
  obtain ⟨hsound, hfull⟩ := after_sound (sound_new key hd) presses
  change s.Sound at hsound
  change s.full = full at hfull
  obtain ⟨hdistinct, hp⟩ := hsound
  -- two toggles of one node
  have htwice {n : Tree} (hn : n ∈ s.current.preorder) : ∃ around source, source ∈ s.full.preorder ∧
      Tree.Prunes source n ∧ s.current = Tree.within around n ∧
      (s.toggle n.id >>= (·.toggle n.id)) =
        .ok { s with current := Tree.within around (source.toggled (source.toggled n)) } := by
    obtain ⟨around, source, hsource, hpn, hwithin, htoggle⟩ := hp.exists_toggleAt hdistinct hn
    have hfirst := htoggle n rfl
    rw [← hwithin] at hfirst
    have hsecond := htoggle (source.toggled n) (Tree.id_toggled source n)
    exact ⟨around, source, hsource, hpn, hwithin, toggle_bind_toggle ⟨hdistinct, hp⟩ hfirst hsecond⟩
  simp only [Tree.walk_eq_preorder]
  refine ⟨fun i hi j hj hij hji => ?_, fun n hn hnil => ?_, fun n hn hopen => ?_⟩
  · by_cases hne : i = j
    · subst hne
      obtain ⟨n, hn, rfl⟩ := Tree.mem_ids_iff.mp hi
      obtain ⟨around, source, -, -, -, hboth⟩ := htwice hn
      exact ⟨_, hboth, hboth⟩
    · obtain ⟨a, b, next, ha, hb, hnext, hnext'⟩ := hp.toggleAt_comm hdistinct hne hi hj hij hji
      exact ⟨next, toggle_bind_toggle ⟨hdistinct, hp⟩ ha hnext,
        toggle_bind_toggle ⟨hdistinct, hp⟩ hb hnext'⟩
  · obtain ⟨around, source, -, hpn, hwithin, hboth⟩ := htwice hn
    rw [hboth, hpn.toggled_toggled_of_nil hnil, ← hwithin]
  · obtain ⟨around, source, hsource, hpn, hwithin, hboth⟩ := htwice hn
    refine ⟨around, hwithin, source, hfull ▸ hsource, hpn.id_eq.symm, ?_⟩
    rw [hboth, hpn.toggled_toggled_of_ne_nil hopen]
    rfl

/-- The data of a node of the example. -/
def branchData (i : Int) (truncated : Bool) : NodeData :=
  { id := i, file := {}, name := "f", kind := "function", range := ⟨1, 0⟩,
    selection := ⟨1, 0⟩, truncated }

/-- A tree with a node of which only two children were built, the second of them again only in
part. -/
def twoBranches : Tree :=
  .node (branchData 0 false) [.node (branchData 1 true)
    [.node (branchData 2 false) [.node (branchData 4 true) []],
      .node (branchData 3 true) [.node (branchData 5 false) []]]]

/-- The node above the branches, with the second branch closed. -/
def firstBranch : Tree := .node (branchData 1 true)
  [.node (branchData 2 false) [.node (branchData 4 true) []], .node (branchData 3 false) []]

/-- With the second branch closed, both branches can be toggled in either order, the second can be
opened and closed again, and when the node above them is closed and opened again, both branches are
there and closed. -/
theorem toggle_toggle_twoBranches :
    twoBranches.Distinct ∧
      let s := ({ key := "/a.py/f:1", full := twoBranches } : Session).after [3]
      s.current = .node (branchData 0 false) [firstBranch] ∧
        (∃ next, (s.toggle 2 >>= (·.toggle 3)) = .ok { s with current := next } ∧
          (s.toggle 3 >>= (·.toggle 2)) = .ok { s with current := next }) ∧
        (s.toggle 3 >>= (·.toggle 3)) = .ok s ∧
        ∃ around, s.current = Tree.within around firstBranch ∧
          ∃ source ∈ twoBranches.walk, source.id = 1 ∧ (s.toggle 1 >>= (·.toggle 1)) = .ok
            { s with current :=
              Tree.within around (.node source.data (source.children.map Tree.collapsed)) } := by
  have hd : twoBranches.Distinct := by decide
  obtain ⟨hcomm, hclosed, hopen⟩ := toggle_toggle "/a.py/f:1" hd [3]
  have hcurrent : (({ key := "/a.py/f:1", full := twoBranches } : Session).after [3]).current =
      .node (branchData 0 false) [firstBranch] := by
    cbv
  rw [hcurrent, Tree.walk_eq_preorder] at hcomm hclosed hopen
  refine ⟨hd, hcurrent, hcomm 2 ?_ 3 ?_ ?_ ?_, hclosed (.node (branchData 3 false) []) ?_ rfl, ?_⟩
  · decide
  · decide
  · decide
  · decide
  · simp [firstBranch]
  · rw [hcurrent]
    exact hopen firstBranch
      (Tree.mem_preorder_of_mem_children List.mem_cons_self firstBranch.self_mem_preorder)
      (by simp [firstBranch])

end Session

end CallAtlas
