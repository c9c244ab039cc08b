import CallAtlas.Proofs.Copies
import CallAtlas.View.Session
import Mathlib.Data.List.Forall2
import Mathlib.Logic.Relation

/-!
# What a session can show

A session over a tree with distinct identifiers shows a *pruning* of it: a tree that has some nodes
closed, with everything below them left out, and that is otherwise the same. The flag `truncated`
follows what is shown: a closed node does not carry it, an open one and a true leaf carry that of
the whole tree.

- `Tree.IsPruning` says this node by node, through the identifiers; `Tree.Prunes` says it along the
  structure of the two trees, which is the form the proofs use. `Tree.isPruning_iff_prunes`: they
  agree when identifiers are distinct.
- `Tree.toggleAt` is the effect of a toggle on what is shown. It is defined exactly at the
  identifiers that are shown and leads from prunings to prunings (`Tree.Prunes.toggleAt`), and a
  toggle below a child is a toggle of that child (`Tree.toggleAt_child`).
- `Tree.Prunes.reaches`: between any two prunings there is a run of toggles. The run first closes
  the root, so that only one tree is left to start from, then opens it and brings every child into
  its final form.
-/

namespace CallAtlas

namespace Tree

/-! ## Prunings -/

/-- A shown node stands for a node of the whole tree: the data agree but for the flag, the children
are all there or none is, and the flag is lost exactly where children are hidden. -/
structure StandsFor (shown full : Tree) : Prop where
  data : shown.data = { full.data with truncated := shown.data.truncated }
  children : shown.children = [] ∨
    List.Forall₂ (fun c s => c.id = s.id) shown.children full.children
  flag : shown.children ≠ [] ∨ full.children = [] →
    shown.data.truncated = full.data.truncated
  hidden : shown.children = [] → full.children ≠ [] → shown.data.truncated = false

/-- A pruning of a tree: the same root, and every node stands for the node of the tree with the same
identifier. -/
structure IsPruning (full shown : Tree) : Prop where
  root : shown.id = full.id
  nodes : ∀ n ∈ shown.walk, ∃ s ∈ full.walk, s.id = n.id ∧ n.StandsFor s

/-- Prunings along the structure: a node with children is closed, or a node is kept and its children
are pruned. -/
inductive Prunes : Tree → Tree → Prop
  | closed (d : NodeData) {cs : List Tree} (h : cs ≠ []) :
    Prunes (.node d cs) (.node { d with truncated := false } [])
  | kept (d : NodeData) {cs cs' : List Tree} (h : List.Forall₂ Prunes cs cs') :
    Prunes (.node d cs) (.node d cs')

theorem Prunes.refl (t : Tree) : Prunes t t := by
  induction t using induct with
  | node d cs ih => exact .kept d (List.forall₂_same.mpr ih)

theorem collapsed_leaf (d : NodeData) : (Tree.node d []).collapsed = .node d [] := by
  simp [collapsed]

theorem collapsed_of_ne_nil (d : NodeData) {cs : List Tree} (h : cs ≠ []) :
    (Tree.node d cs).collapsed = .node { d with truncated := false } [] := by
  simp [collapsed, h]

theorem Prunes.collapsed (t : Tree) : Prunes t t.collapsed := by
  obtain ⟨d, cs⟩ := t
  by_cases h : cs = []
  · rw [h, collapsed_leaf]
    exact .refl _
  · rw [collapsed_of_ne_nil d h]
    exact .closed d h

/-- Opening a node shows all its children, each closed. -/
theorem Prunes.opened (d : NodeData) (cs : List Tree) :
    Prunes (.node d cs) (.node d (cs.map Tree.collapsed)) :=
  .kept d (List.forall₂_map_right_iff.mpr (List.forall₂_same.mpr fun c _ => .collapsed c))

theorem Prunes.id_eq {full shown : Tree} (h : Prunes full shown) : shown.id = full.id := by
  cases h with
  | closed d h => rfl
  | kept d h => rfl

/-- Two lists related pair by pair, cut at a member of the second. -/
theorem forall₂_cut {R : Tree → Tree → Prop} {ts us : List Tree} (h : List.Forall₂ R ts us)
    {u : Tree} (hu : u ∈ us) :
    ∃ as t bs as' bs', ts = as ++ t :: bs ∧ us = as' ++ u :: bs' ∧
      List.Forall₂ R as as' ∧ R t u ∧ List.Forall₂ R bs bs' := by
  induction h with
  | nil => exact absurd hu List.not_mem_nil
  | @cons t u' ts us htu h ih =>
    rcases List.mem_cons.mp hu with rfl | hu
    · exact ⟨[], t, ts, [], us, rfl, rfl, .nil, htu, h⟩
    · obtain ⟨as, s, bs, as', bs', rfl, rfl, has, hs, hbs⟩ := ih hu
      exact ⟨t :: as, s, bs, u' :: as', bs', rfl, rfl, .cons htu has, hs, hbs⟩

/-- A pruning shows only identifiers of the whole tree. -/
theorem Prunes.ids_subset {full shown : Tree} (h : Prunes full shown) : shown.ids ⊆ full.ids := by
  induction full using induct generalizing shown with
  | node d cs ih =>
    cases h with
    | closed d h => simp
    | @kept _ _ cs' h =>
      intro i hi
      rw [ids_node, List.mem_cons, List.mem_flatMap] at hi ⊢
      rcases hi with hi | ⟨c', hc', hi⟩
      · exact .inl hi
      · obtain ⟨as, c, bs, -, -, rfl, -, -, hp, -⟩ := forall₂_cut h hc'
        have hc : c ∈ as ++ c :: bs := by simp
        exact .inr ⟨c, hc, ih c hc hp hi⟩

/-! ## Node by node, and along the structure -/

theorem StandsFor.of_prunes {full shown : Tree} (h : Prunes full shown) :
    shown.StandsFor full := by
  cases h with
  | closed d hcs => exact ⟨rfl, .inl rfl, by simp [hcs], fun _ _ => rfl⟩
  | @kept d cs cs' h =>
    refine ⟨rfl, .inr (h.flip.imp fun _ _ hp => hp.id_eq), fun _ => rfl, fun hnil hcs => ?_⟩
    subst hnil
    exact absurd (List.forall₂_nil_right_iff.mp h) hcs

/-- Every node of a pruning is the pruning of a node. -/
theorem Prunes.exists_of_mem {full shown n : Tree} (h : Prunes full shown)
    (hn : n ∈ shown.preorder) : ∃ s ∈ full.preorder, Prunes s n := by
  induction full using induct generalizing shown with
  | node d cs ih =>
    rcases mem_preorder_iff.mp hn with rfl | ⟨c', hc', hnc⟩
    · exact ⟨_, self_mem_preorder _, h⟩
    · cases h with
      | closed d h => exact absurd hc' List.not_mem_nil
      | kept d h =>
        obtain ⟨as, c, bs, -, -, rfl, -, -, hp, -⟩ := forall₂_cut h hc'
        have hc : c ∈ as ++ c :: bs := by simp
        obtain ⟨s, hs, hsn⟩ := ih c hc hp hnc
        exact ⟨s, mem_preorder_of_mem_children hc hs, hsn⟩

/-- Nodes that stand for nodes of a tree with distinct identifiers make up prunings of them: the
children of the two have the same identifiers in the same order, and what stands for a child is
known by its identifier. -/
theorem prunes_of_standsFor {full shown : Tree} (hd : full.Distinct)
    (hall : ∀ n ∈ shown.preorder, ∃ s ∈ full.preorder, s.id = n.id ∧ n.StandsFor s)
    {n s : Tree} (hn : n ∈ shown.preorder) (hs : s ∈ full.preorder) (hid : s.id = n.id) :
    Prunes s n := by
  induction n using induct generalizing s with
  | node d' cs' ih =>
    obtain ⟨s', hs', hid', hstands⟩ := hall _ hn
    obtain rfl := eq_of_id_eq hd hs hs' (hid.trans hid'.symm)
    obtain ⟨d, cs⟩ := s
    obtain ⟨hdata, hchildren, hflag, hhidden⟩ := hstands
    simp only [data_node, children_node] at hdata hchildren hflag hhidden
    by_cases hcs' : cs' = []
    · subst hcs'
      by_cases hcs : cs = []
      · -- a true leaf keeps its flag
        subst hcs
        rw [hflag (.inr rfl)] at hdata
        rw [hdata]
        exact .refl _
      · rw [hhidden rfl hcs] at hdata
        rw [hdata]
        exact .closed d hcs
    · rw [hflag (.inl hcs')] at hdata
      rw [hdata]
      refine .kept d (List.forall₂_iff_zip.mpr ?_)
      have hpairs := hchildren.resolve_left hcs'
      refine ⟨hpairs.length_eq.symm, fun {c c'} hzip => ?_⟩
      have hc : c ∈ cs := (List.of_mem_zip hzip).1
      have hc' : c' ∈ cs' := (List.of_mem_zip hzip).2
      have hcc : c.id = c'.id := (List.forall₂_zip hpairs.flip hzip).symm
      exact ih c' hc'
        (mem_preorder_trans hn (mem_preorder_of_mem_children hc' c'.self_mem_preorder))
        (mem_preorder_trans hs (mem_preorder_of_mem_children hc c.self_mem_preorder)) hcc

/-- With distinct identifiers the two readings of a pruning agree. -/
theorem isPruning_iff_prunes {full shown : Tree} (hd : full.Distinct) :
    IsPruning full shown ↔ Prunes full shown := by
  constructor
  · rintro ⟨hroot, hnodes⟩
    simp only [walk_eq_preorder] at hnodes
    exact prunes_of_standsFor hd hnodes shown.self_mem_preorder full.self_mem_preorder hroot.symm
  · intro h
    refine ⟨h.id_eq, fun n hn => ?_⟩
    rw [walk_eq_preorder] at hn
    obtain ⟨s, hs, hp⟩ := h.exists_of_mem hn
    exact ⟨s, by rwa [walk_eq_preorder], hp.id_eq.symm, .of_prunes hp⟩

/-! ## One toggle -/

/-- What is shown after a toggle, if the node is there. -/
def toggleAt (full shown : Tree) (i : Int) : Option Tree :=
  (full.find? i).bind fun source => shown.replaceFirst? i source.toggled

theorem replaceFirst?_node (i : Int) (f : Tree → Tree) (d : NodeData) (cs : List Tree) :
    replaceFirst? i f (.node d cs) =
      if d.id = i then some (f (.node d cs)) else (replaceFirstOfAll? i f cs).map (.node d) := by
  rw [replaceFirst?]

/-- Trees that do not have the identifier are passed over. -/
theorem replaceFirstOfAll?_append {i : Int} {f : Tree → Tree} {as : List Tree}
    (h : ∀ t ∈ as, replaceFirst? i f t = none) (bs : List Tree) :
    replaceFirstOfAll? i f (as ++ bs) = (replaceFirstOfAll? i f bs).map (as ++ ·) := by
  induction as with
  | nil => simp
  | cons t as ih =>
    rw [List.cons_append, replaceFirstOfAll?, h t List.mem_cons_self,
      ih fun t ht => h t (List.mem_cons_of_mem _ ht)]
    simp [Function.comp_def]

theorem replaceFirst?_eq_none {t : Tree} {i : Int} (f : Tree → Tree) (h : i ∉ t.ids) :
    replaceFirst? i f t = none := by
  induction t using induct with
  | node d cs ih =>
    rw [ids_node, List.mem_cons, List.mem_flatMap, not_or] at h
    have hcs : ∀ c ∈ cs, replaceFirst? i f c = none := fun c hc =>
      ih c hc fun hi => h.2 ⟨c, hc, hi⟩
    have hall := replaceFirstOfAll?_append hcs []
    rw [List.append_nil, replaceFirstOfAll?, Option.map_none] at hall
    rw [replaceFirst?_node, if_neg (Ne.symm h.1), hall, Option.map_none]

/-- At the root a toggle acts on the whole of what is shown. -/
theorem toggleAt_root {full shown : Tree} (hd : full.Distinct) (hid : shown.id = full.id) :
    toggleAt full shown full.id = some (full.toggled shown) := by
  obtain ⟨d', cs'⟩ := shown
  rw [id_node] at hid
  rw [toggleAt, find?_of_mem hd full.self_mem_preorder, Option.bind_some, replaceFirst?_node,
    if_pos hid]

/-- Below a child a toggle is a toggle of that child, and everything beside it stays. -/
theorem toggleAt_child {d d' : NodeData} {as bs as' bs' : List Tree} {c c' c'' : Tree} {i : Int}
    (hd : (Tree.node d (as ++ c :: bs)).Distinct) (hid : d'.id = d.id)
    (has : List.Forall₂ Prunes as as') (hi : i ∈ c.ids) (h : toggleAt c c' i = some c'') :
    toggleAt (.node d (as ++ c :: bs)) (.node d' (as' ++ c' :: bs')) i =
      some (.node d' (as' ++ c'' :: bs')) := by
  obtain ⟨hroot, hin, hout⟩ := distinct_node_iff.mp hd
  have hc : c ∈ as ++ c :: bs := by simp
  obtain ⟨source, hsource, rfl⟩ := mem_ids_iff.mp hi
  have hfind : (Tree.node d (as ++ c :: bs)).find? source.id = some source :=
    find?_of_mem hd (mem_preorder_of_mem_children hc hsource)
  rw [toggleAt, find?_of_mem (hin c hc) hsource, Option.bind_some] at h
  have hne : d'.id ≠ source.id := fun heq => hroot c hc (hid ▸ heq ▸ hi)
  have hpass : ∀ t ∈ as', replaceFirst? source.id source.toggled t = none := by
    intro t ht
    obtain ⟨as₁, a, as₂, -, -, rfl, -, -, hp, -⟩ := forall₂_cut has ht
    refine replaceFirst?_eq_none _ fun hia => ?_
    -- the identifier would occur both in `c` and in a child before it
    have hdisj : List.Disjoint a.ids c.ids :=
      (List.pairwise_append.mp hout).2.2 a (by simp) c List.mem_cons_self
    exact hdisj (hp.ids_subset hia) hi
  rw [toggleAt, hfind, Option.bind_some, replaceFirst?_node, if_neg hne,
    replaceFirstOfAll?_append hpass, replaceFirstOfAll?, h]
  rfl

theorem toggled_closed (d : NodeData) {cs : List Tree} (h : cs ≠ []) :
    (Tree.node d cs).toggled (Tree.node d cs).collapsed = .node d (cs.map collapsed) := by
  rw [collapsed_of_ne_nil d h]
  rfl

theorem toggled_open (d : NodeData) {cs cs' : List Tree} (h : cs' ≠ []) :
    (Tree.node d cs).toggled (.node d cs') = .node { d with truncated := false } [] := by
  simp [toggled, h]

theorem toggled_leaf (d : NodeData) : (Tree.node d []).toggled (.node d []) = .node d [] := rfl

/-- Toggling the root of a pruning gives a pruning. -/
theorem Prunes.toggled {full shown : Tree} (h : Prunes full shown) :
    Prunes full (full.toggled shown) := by
  cases h with
  | closed d hcs =>
    rw [← collapsed_of_ne_nil d hcs, toggled_closed d hcs]
    exact .opened d _
  | @kept d cs cs' h =>
    by_cases hcs' : cs' = []
    · subst hcs'
      obtain rfl := List.forall₂_nil_right_iff.mp h
      rw [toggled_leaf]
      exact .refl _
    · have hcs : cs ≠ [] := fun hnil => hcs' (List.forall₂_nil_left_iff.mp (hnil ▸ h))
      rw [toggled_open d hcs']
      exact .closed d hcs

/-- **One toggle**: at every identifier that is shown, a toggle leads from a pruning to a
pruning. -/
theorem Prunes.toggleAt {full shown : Tree} (hd : full.Distinct) (h : Prunes full shown) {i : Int}
    (hi : i ∈ shown.ids) : ∃ next, toggleAt full shown i = some next ∧ Prunes full next := by
  induction full using induct generalizing shown with
  | node d cs ih =>
    by_cases hroot : d.id = i
    · subst hroot
      exact ⟨_, toggleAt_root hd h.id_eq, h.toggled⟩
    · cases h with
      | closed d h => exact absurd (by simpa using hi : i = d.id) (Ne.symm hroot)
      | @kept _ _ cs' h =>
        rw [ids_node, List.mem_cons, List.mem_flatMap] at hi
        obtain ⟨c', hc', hic⟩ := hi.resolve_left (Ne.symm hroot)
        obtain ⟨as, c, bs, as', bs', rfl, rfl, has, hp, hbs⟩ := forall₂_cut h hc'
        have hc : c ∈ as ++ c :: bs := by simp
        obtain ⟨next, hnext, hpn⟩ := ih c hc (hd.child hc) hp hic
        refine ⟨_, toggleAt_child hd rfl has (hp.ids_subset hic) hnext, .kept d ?_⟩
        exact List.rel_append has (.cons hpn hbs)

/-! ## Runs of toggles -/

/-- One toggle leads from what is shown to what is shown next. -/
def Toggles (full shown next : Tree) : Prop := ∃ i, toggleAt full shown i = some next

/-- A run of toggles leads from what is shown to what is shown in the end. -/
abbrev Reaches (full : Tree) : Tree → Tree → Prop := Relation.ReflTransGen full.Toggles

theorem mem_ids_of_toggleAt {full shown next : Tree} {i : Int}
    (h : toggleAt full shown i = some next) : i ∈ full.ids := by
  obtain ⟨source, hfind, -⟩ := Option.bind_eq_some_iff.mp h
  obtain ⟨hmem, hid⟩ := mem_of_find?_eq_some hfind
  exact mem_ids_iff.mpr ⟨source, hmem, hid⟩

/-- A run on a child is a run on the whole, with the other children as they are. -/
theorem reaches_child {d : NodeData} {as bs as' bs' : List Tree} {c p q : Tree}
    (hd : (Tree.node d (as ++ c :: bs)).Distinct) (has : List.Forall₂ Prunes as as')
    (h : c.Reaches p q) :
    Reaches (.node d (as ++ c :: bs))
      (.node d (as' ++ p :: bs')) (.node d (as' ++ q :: bs')) := by
  refine h.lift (fun t => Tree.node d (as' ++ t :: bs')) ?_
  rintro p q ⟨i, hi⟩
  exact ⟨i, toggleAt_child hd rfl has (mem_ids_of_toggleAt hi) hi⟩

/-- Closed children are brought into their final form one after the other, from left to right. -/
theorem reaches_children {d : NodeData} (as as' : List Tree) {bs bs' : List Tree}
    (hd : (Tree.node d (as ++ bs)).Distinct) (has : List.Forall₂ Prunes as as')
    (hbs : List.Forall₂ Prunes bs bs')
    (hreach : ∀ c ∈ bs, ∀ goal, Prunes c goal → c.Reaches c.collapsed goal) :
    Reaches (.node d (as ++ bs))
      (.node d (as' ++ bs.map collapsed)) (.node d (as' ++ bs')) := by
  induction hbs generalizing as as' with
  | nil => exact .refl
  | @cons c goal bs bs' hp hbs ih =>
    have hfirst : Reaches (.node d (as ++ c :: bs))
        (.node d (as' ++ c.collapsed :: bs.map collapsed))
        (.node d (as' ++ goal :: bs.map collapsed)) :=
      reaches_child hd has (hreach c List.mem_cons_self goal hp)
    have hrest := ih (as ++ [c]) (as' ++ [goal]) (by simpa using hd)
      (List.rel_append has (.cons hp .nil)) fun c hc => hreach c (List.mem_cons_of_mem _ hc)
    simp only [List.append_assoc, List.cons_append, List.nil_append] at hrest
    exact hfirst.trans hrest

/-- From the closed root every pruning is reached. -/
theorem reaches_of_collapsed {full goal : Tree} (hd : full.Distinct) (h : Prunes full goal) :
    full.Reaches full.collapsed goal := by
  induction full using induct generalizing goal with
  | node d cs ih =>
    cases h with
    | closed d hcs =>
      rw [collapsed_of_ne_nil d hcs]
    | @kept _ _ cs' h =>
      by_cases hcs : cs = []
      · subst hcs
        obtain rfl := List.forall₂_nil_left_iff.mp h
        rw [collapsed_leaf]
      · have hopen : Toggles (.node d cs) (Tree.node d cs).collapsed
            (.node d (cs.map collapsed)) := by
          refine ⟨d.id, ?_⟩
          rw [← toggled_closed d hcs]
          exact toggleAt_root hd (Prunes.collapsed _).id_eq
        have hrest := reaches_children [] [] hd .nil h
          fun c hc goal hp => ih c hc (hd.child hc) hp
        exact .head hopen hrest

/-- To the closed root at most one toggle leads. -/
theorem reaches_collapsed {full shown : Tree} (hd : full.Distinct) (h : Prunes full shown) :
    full.Reaches shown full.collapsed := by
  cases h with
  | closed d hcs => rw [collapsed_of_ne_nil d hcs]
  | @kept d cs cs' h =>
    by_cases hcs' : cs' = []
    · subst hcs'
      obtain rfl := List.forall₂_nil_right_iff.mp h
      rw [collapsed_leaf]
    · have hcs : cs ≠ [] := fun hnil => hcs' (List.forall₂_nil_left_iff.mp (hnil ▸ h))
      refine .single ⟨d.id, ?_⟩
      rw [collapsed_of_ne_nil d hcs, ← toggled_open d hcs']
      exact toggleAt_root hd rfl

/-- **Nothing is lost**: between any two prunings there is a run of toggles. -/
theorem Prunes.reaches {full shown goal : Tree} (hd : full.Distinct) (h : Prunes full shown)
    (hgoal : Prunes full goal) : full.Reaches shown goal :=
  (reaches_collapsed hd h).trans (reaches_of_collapsed hd hgoal)

end Tree

/-! ## Sessions -/

namespace Session

/-- The session after a toggle; one that fails leaves it as it is. -/
def press (s : Session) (i : Int) : Session :=
  match s.toggle i with
  | .ok next => next
  | .error _ => s

/-- The session after a sequence of toggles, of which some may fail. -/
def after (s : Session) (presses : List Int) : Session := presses.foldl press s

/-- What a session shows is a pruning of its tree. -/
def Sound (s : Session) : Prop := s.full.Distinct ∧ s.full.Prunes s.current

/-- What a toggle does: it fails at an identifier that is not shown, and otherwise changes what is
shown, and only that, from one pruning into another. -/
theorem toggle_cases {s : Session} (h : s.Sound) (i : Int) :
    (i ∉ s.current.ids ∧ s.toggle i = .error ⟨i, "the current tree"⟩) ∨
      (i ∈ s.current.ids ∧ ∃ next, s.full.toggleAt s.current i = some next ∧
        s.toggle i = .ok { s with current := next } ∧ s.full.Prunes next) := by
  obtain ⟨hd, hp⟩ := h
  by_cases hi : i ∈ s.current.ids
  · obtain ⟨next, hnext, hpn⟩ := hp.toggleAt hd hi
    refine .inr ⟨hi, next, hnext, ?_, hpn⟩
    obtain ⟨source, hsource, hreplace⟩ := Option.bind_eq_some_iff.mp hnext
    have hfound : s.current.find? i ≠ none := fun hnone => Tree.find?_eq_none_iff.mp hnone hi
    obtain ⟨target, htarget⟩ := Option.ne_none_iff_exists'.mp hfound
    have hok : s.toggle i = .ok { s with
        current := (s.current.replaceFirst? i source.toggled).getD s.current } := by
      simp only [toggle, Tree.find, htarget, hsource]
      rfl
    rw [hok, hreplace, Option.getD_some]
  · refine .inl ⟨hi, ?_⟩
    simp only [toggle, Tree.find, Tree.find?_eq_none_iff.mpr hi]
    rfl

theorem press_cases {s : Session} (h : s.Sound) (i : Int) :
    s.press i = s ∨ ∃ next, s.press i = { s with current := next } ∧ s.full.Prunes next := by
  rcases toggle_cases h i with ⟨-, he⟩ | ⟨-, next, -, hok, hp⟩
  · exact .inl (by rw [press, he])
  · exact .inr ⟨next, by rw [press, hok], hp⟩

/-- A sequence of toggles changes what is shown and nothing else, and keeps it a pruning. -/
theorem after_sound {s : Session} (h : s.Sound) (presses : List Int) :
    (s.after presses).Sound ∧ (s.after presses).full = s.full := by
  induction presses generalizing s with
  | nil => exact ⟨h, rfl⟩
  | cons i presses ih =>
    have hstep : (s.press i).Sound ∧ (s.press i).full = s.full := by
      rcases press_cases h i with heq | ⟨next, heq, hp⟩
      · rw [heq]
        exact ⟨h, rfl⟩
      · rw [heq]
        exact ⟨⟨h.1, hp⟩, rfl⟩
    obtain ⟨hsound, hfull⟩ := ih hstep.1
    exact ⟨hsound, hfull.trans hstep.2⟩

/-- A run of toggles on what is shown is a sequence of toggles of the session. -/
theorem after_of_reaches {s : Session} (h : s.Sound) {goal : Tree}
    (hrun : s.full.Reaches s.current goal) :
    ∃ presses, (s.after presses).current = goal := by
  induction hrun with
  | refl => exact ⟨[], rfl⟩
  | @tail shown next hrun hstep ih =>
    obtain ⟨presses, rfl⟩ := ih
    obtain ⟨i, hi⟩ := hstep
    obtain ⟨hsound, hfull⟩ := after_sound h presses
    refine ⟨presses ++ [i], ?_⟩
    have hpress : s.after (presses ++ [i]) = (s.after presses).press i := by
      rw [after, List.foldl_append]
      rfl
    rw [hpress, press]
    rcases toggle_cases hsound i with ⟨hnot, -⟩ | ⟨-, next', hnext, hok, -⟩
    · -- a node that is not shown cannot have been toggled
      obtain ⟨source, -, hreplace⟩ := Option.bind_eq_some_iff.mp hi
      rw [Tree.replaceFirst?_eq_none _ hnot] at hreplace
      cases hreplace
    · rw [hok]
      rw [hfull, hi] at hnext
      exact (Option.some.inj hnext).symm

theorem sound_new (key : String) {full : Tree} (hd : full.Distinct) :
    ({ key, full } : Session).Sound :=
  ⟨hd, by rw [Tree.copy_none]; exact .refl full⟩

/-- **Sessions show exactly the prunings of their tree.** Over a tree with distinct identifiers and
after any sequence of toggles, the tree is unchanged and what is shown is a pruning of it; a toggle
fails exactly at an identifier that is not shown, and then changes nothing; and every pruning can be
reached from there by further toggles. -/
theorem shows_prunings (key : String) {full : Tree} (hd : full.Distinct) (presses : List Int) :
    let s := ({ key, full } : Session).after presses
    s.full = full ∧ full.IsPruning s.current ∧
      (∀ i, (∃ e, s.toggle i = .error e) ↔ i ∉ s.current.walk.map Tree.id) ∧
      (∀ i e, s.toggle i = .error e → s.press i = s) ∧
      ∀ goal, full.IsPruning goal → ∃ more, (s.after more).current = goal := by
  intro s
  obtain ⟨hsound, hfull⟩ := after_sound (sound_new key hd) presses
  change s.Sound at hsound
  change s.full = full at hfull
  have hp : full.Prunes s.current := hfull ▸ hsound.2
  refine ⟨hfull, (Tree.isPruning_iff_prunes hd).mpr hp, fun i => ?_, fun i e he => ?_,
    fun goal hgoal => ?_⟩
  · rw [Tree.walk_eq_preorder]
    change _ ↔ i ∉ s.current.ids
    rcases toggle_cases hsound i with ⟨hnot, he⟩ | ⟨hi, next, -, hok, -⟩
    · exact ⟨fun _ => hnot, fun _ => ⟨_, he⟩⟩
    · refine ⟨fun ⟨e, he⟩ => ?_, fun hnot => absurd hi hnot⟩
      rw [hok] at he
      cases he
  · rw [press, he]
  · have hreach := hp.reaches hd ((Tree.isPruning_iff_prunes hd).mp hgoal)
    rw [← hfull] at hreach
    exact after_of_reaches hsound hreach

/-- A tree with a node of which only some children were built. -/
def partlyBuilt : Tree :=
  let data (i : Int) (truncated : Bool) : NodeData :=
    { id := i, file := {}, name := "f", kind := "function", range := ⟨1, 0⟩,
      selection := ⟨1, 0⟩, truncated }
  .node (data 0 false) [.node (data 1 true) [.node (data 2 false) [], .node (data 3 true) []]]

/-- Closing the node that is partly built hides its children, so that a toggle there fails; the flag
and the children come back with further toggles. -/
theorem shows_prunings_partlyBuilt :
    partlyBuilt.Distinct ∧
      let s := ({ key := "/a.py/f:1", full := partlyBuilt } : Session).after [1, 9]
      s.full = partlyBuilt ∧ partlyBuilt.IsPruning s.current ∧ (∃ e, s.toggle 2 = .error e) ∧
        ∃ more, (s.after more).current = partlyBuilt := by
  have hd : partlyBuilt.Distinct := by decide
  have hids :
      (({ key := "/a.py/f:1", full := partlyBuilt } : Session).after [1, 9]).current.walk.map
      Tree.id = [0, 1] := by cbv
  obtain ⟨hfull, hp, herror, -, hreach⟩ := shows_prunings "/a.py/f:1" hd [1, 9]
  refine ⟨hd, hfull, hp, (herror 2).mpr ?_, hreach _ ?_⟩
  · rw [hids]
    decide
  · exact (Tree.isPruning_iff_prunes hd).mpr (.refl _)

end Session

end CallAtlas
