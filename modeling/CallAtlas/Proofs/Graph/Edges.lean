import CallAtlas.Proofs.Graph.Arrows
import CallAtlas.Proofs.Growth.Depth

/-!
# What the edges of a graph mean

The edges of a graph are those between a tree node and each of its children that is drawn
(`GraphConfig.mem_edges_iff`). A hierarchy unfolds the relations of a program into a tree, where one
declaration may stand at many nodes, and the graph folds that tree together again by the identifiers
of the declarations. What is left is the relation itself, restricted to what lies near enough to the
call site: an edge for every relation that is reported for a declaration within the bound on the
depth, if the other declaration is drawn. The one whose relations they are need not be drawn, and
neither need those on the way to it. What is met within the bound has to fit on the stack; where it
does not, edges are missing (`HierarchyPlan.edge_missing_beyond_stack`).
-/

namespace CallAtlas

/-! ## Declarations in a graph -/

/-- Whether a declaration is drawn: it is of a kind that can be called, and what is only declared is
drawn on request.
-/
def Item.Eligible (item : Item) (declaration : Bool) : Prop :=
  (∃ kind : SymbolKind, kind.isCallable = true ∧ item.kind = kind.text) ∧
    (declareModifier ∈ Text.splitText ',' item.modifiers → declaration = true)

theorem NodeData.isCallable_iff (d : NodeData) :
    d.isCallable = true ↔ ∃ kind : SymbolKind, kind.isCallable = true ∧ d.kind = kind.text := by
  simp only [isCallable, List.any_cons, List.any_nil, Bool.or_false, Bool.or_eq_true, beq_iff_eq]
  constructor
  · rintro (h | h | h)
    · exact ⟨.function, rfl, h.symm⟩
    · exact ⟨.method, rfl, h.symm⟩
    · exact ⟨.localFunction, rfl, h.symm⟩
  · rintro ⟨kind, hkind, h⟩
    cases kind with
    | function => exact .inl h.symm
    | method => exact .inr (.inl h.symm)
    | localFunction => exact .inr (.inr h.symm)
    | classLike => cases hkind
    | wholeModule => cases hkind

/-- A node is drawn exactly if the declaration that it shows is. -/
theorem GraphConfig.draws_iff_eligible (config : GraphConfig) {n : Tree} {item : Item}
    (h : n.Shows item) : config.draws n = true ↔ item.Eligible config.declaration := by
  rw [draws, NodeData.isDrawn, Bool.and_eq_true, NodeData.isCallable_iff, Item.Eligible, h.kind]
  refine and_congr Iff.rfl ?_
  rw [Bool.or_eq_true, Bool.not_eq_true', NodeData.isDeclaration, List.contains_eq_mem, h.modifiers]
  by_cases hdeclared : declareModifier ∈ Text.splitText ',' item.modifiers
  · simp [hdeclared]
  · simp [hdeclared]

/-- The identifier of a call site in a graph. -/
def CallSite.graphId (site : CallSite) (root : Option Path) : String :=
  site.file.labelFrom root ++ ":" ++ site.called ++ ":" ++ toString site.position.line

namespace Facts

variable {facts : Facts} {direction : Direction}

/-- The identifier of a declaration in a graph. Lines count from one. -/
def graphId (facts : Facts) (root : Option Path) (item : Item) : String :=
  item.file.labelFrom root ++ ":" ++ item.name ++ ":" ++
    toString ((facts.place item.file item.selectionStart).line + 1)

theorem idOf_tree_unfolding (config : GraphConfig) (levels i : Nat) (item : Item) :
    config.idOf ((facts.unfolding direction levels item).tree i) =
      facts.graphId config.root item := by
  rw [GraphConfig.idOf, data_tree_unfolding]
  rfl

/-- An edge below a declaration comes from a relation that is reported near enough to it. -/
theorem exists_relation_of_edge {config : GraphConfig} {levels i : Nat} {f : Item}
    {parent child : Tree}
    (hparent : parent ∈ ((facts.unfolding direction levels f).tree i).preorder)
    (hchild : child ∈ parent.children) (hdraws : config.draws child = true) :
    ∃ path u, facts.follow direction f path = some u ∧ path.length < levels ∧
      ∃ relation ∈ facts.related direction u, relation.item.Eligible config.declaration ∧
        config.edgeBetween parent child =
          config.arrow (facts.graphId config.root u) (facts.graphId config.root relation.item) := by
  obtain ⟨path, hpath⟩ := Tree.mem_preorder_iff_descend.mp hparent
  obtain ⟨hlength, u, j, hfollow, rfl⟩ := exists_follow_of_descend hpath
  cases hleft : levels - path.length with
  | zero =>
    -- on the last level nothing has children
    rw [hleft, tree_unfolding_zero] at hchild
    cases hchild
  | succ left =>
    rw [hleft] at hchild
    obtain ⟨relation, hrelation, k, rfl⟩ := exists_relation_of_mem_children hchild
    refine ⟨path, u, hfollow, by omega, relation, hrelation, ?_, ?_⟩
    · exact (config.draws_iff_eligible (shows_tree_unfolding left k relation.item)).mp hdraws
    · rw [GraphConfig.edgeBetween_eq_arrow, idOf_tree_unfolding, idOf_tree_unfolding]

/-- A relation that is reported near enough to a declaration gives an edge below it. -/
theorem exists_edge_of_relation {config : GraphConfig} {levels : Nat} (i : Nat) {f u : Item}
    {path : List Nat} {relation : Relation} (hfollow : facts.follow direction f path = some u)
    (hlength : path.length < levels) (hrelation : relation ∈ facts.related direction u)
    (heligible : relation.item.Eligible config.declaration) :
    ∃ parent ∈ ((facts.unfolding direction levels f).tree i).preorder, ∃ child ∈ parent.children,
      config.draws child = true ∧ config.edgeBetween parent child =
        config.arrow (facts.graphId config.root u) (facts.graphId config.root relation.item) := by
  obtain ⟨j, hpath⟩ := exists_descend_of_follow i hfollow (Nat.le_of_lt hlength)
  obtain ⟨left, hleft⟩ : ∃ left, levels - path.length = left + 1 :=
    ⟨levels - path.length - 1, by omega⟩
  rw [hleft] at hpath
  obtain ⟨k, hchild⟩ := exists_mem_children_of_relation left j hrelation
  refine ⟨_, Tree.mem_preorder_iff_descend.mpr ⟨path, hpath⟩, _, hchild, ?_, ?_⟩
  · exact (config.draws_iff_eligible (shows_tree_unfolding left k relation.item)).mpr heligible
  · rw [GraphConfig.edgeBetween_eq_arrow, idOf_tree_unfolding, idOf_tree_unfolding]

end Facts

namespace HierarchyPlan

variable {σ : Type} {r : Resolver σ} {facts : Facts}

/-- **The edges are the reported relations.** With a resolver that always answers, and if what is
met from `f` within the bound fits on the stack, the tree of a call site at which the declaration
`f` is found first gives the edge from the call site to `f`, if that is drawn, and one for every
relation to a declaration that is drawn, reported for a declaration that a path of at most `d - 2`
relations leads to from `f`; and no others. -/
theorem mem_edges_grow_upTo_iff (h : r.Tells facts) (site : CallSite) (direction : Direction)
    (state : σ) {f : Item} {others : List Item}
    (hf : facts.prepared site.file site.position.start = f :: others)
    {d room : Nat} (hd : 1 ≤ d) (hfits : facts.Fits direction room d f) (config : GraphConfig) :
    make site (some d) room = .ok (upTo site d room) ∧
      ∃ t, ((upTo site d room).grow r direction state).1.tree = some t ∧ ∀ e : Edge,
        e ∈ (config.graphOf t).edges ↔
          (f.Eligible config.declaration ∧
            e = config.arrow (site.graphId config.root) (facts.graphId config.root f)) ∨
          ∃ path u, facts.follow direction f path = some u ∧ path.length + 2 ≤ d ∧
            ∃ relation ∈ facts.related direction u, relation.item.Eligible config.declaration ∧
              e = config.arrow (facts.graphId config.root u)
                (facts.graphId config.root relation.item) := by
  obtain ⟨levels, rfl⟩ : ∃ levels, d = levels + 1 := ⟨d - 1, by omega⟩
  refine ⟨make_eq_upTo site hd room, site.wrap ((facts.unfolding direction levels f).tree 1),
    ?_, fun e => ?_⟩
  · have hfirst : ∀ item ∈ (facts.prepared site.file site.position.start).head?,
        facts.Fits direction room (levels + 1) item := by
      rw [hf]
      rintro item ⟨⟩
      exact hfits
    rw [grow_upTo h site direction levels hfirst state, hf]
    rfl
  have hcall (child : Tree) : config.edgeBetween
      (site.wrap ((facts.unfolding direction levels f).tree 1)) child =
        config.arrow (site.graphId config.root) (config.idOf child) :=
    config.edgeBetween_eq_arrow _ child
  have hfirst : config.draws ((facts.unfolding direction levels f).tree 1) = true ↔
      f.Eligible config.declaration :=
    config.draws_iff_eligible (Facts.shows_tree_unfolding levels 1 f)
  rw [GraphConfig.mem_edges_iff]
  constructor
  · rintro ⟨parent, hparent, child, hchild, hdraws, rfl⟩
    rcases Tree.mem_preorder_iff.mp hparent with rfl | ⟨c, hc, hparent⟩
    · obtain rfl := List.mem_singleton.mp hchild
      exact .inl ⟨hfirst.mp hdraws, by rw [hcall, Facts.idOf_tree_unfolding]⟩
    · obtain rfl := List.mem_singleton.mp hc
      obtain ⟨path, u, hfollow, hlength, relation, hrelation, heligible, hedge⟩ :=
        Facts.exists_relation_of_edge hparent hchild hdraws
      exact .inr ⟨path, u, hfollow, by omega, relation, hrelation, heligible, hedge⟩
  · rintro (⟨heligible, rfl⟩ | ⟨path, u, hfollow, hlength, relation, hrelation, heligible, rfl⟩)
    · refine ⟨_, Tree.self_mem_preorder _, _, List.mem_singleton_self _, hfirst.mpr heligible, ?_⟩
      rw [hcall, Facts.idOf_tree_unfolding]
    · obtain ⟨parent, hparent, child, hchild, hdraws, hedge⟩ :=
        Facts.exists_edge_of_relation 1 hfollow (by omega : path.length < levels)
          hrelation heligible
      exact ⟨parent, Tree.mem_preorder_of_mem_children (List.mem_singleton_self _) hparent, child,
        hchild, hdraws, hedge.symm⟩

/-- A program in which the class `Box` calls `start`, and `main` and `start` make boxes. -/
def boxes : Facts where
  prepared _ _ := [declaration "start" "method"]
  related
    | .incoming, { name := "start", .. } => [⟨declaration "Box" "class", [30]⟩]
    | .incoming, { name := "Box", .. } =>
      [⟨declaration "main" "function", [52]⟩, ⟨declaration "start" "method", [71]⟩]
    | _, _ => []
  place _ offset := ⟨0, offset⟩
where
  declaration (name kind : String) : Item := { file := {}, name, kind }

/-- A call of `start`. -/
def callOfStart : CallSite :=
  { file := {}, called := "start", span := ⟨4, 8, 30, 35⟩, position := ⟨4, 8, 30, 35⟩ }

/-- With three levels the callers of `start` are followed up to those of `Box`. The class is not
drawn, but the edges from its callers to it are there. -/
theorem mem_edges_grow_upTo_iff_boxes :
    boxes.resolver.Tells boxes ∧
      boxes.Fits .incoming stackRoom 3 (boxes.declaration "start" "method") ∧
      ∃ t, ((upTo callOfStart 3 stackRoom).grow boxes.resolver .incoming ()).1.tree = some t ∧
        ∀ edge ∈ [⟨".:start:1", ".:start:4"⟩, ⟨".:main:1", ".:Box:1"⟩, ⟨".:start:1", ".:Box:1"⟩],
          edge ∈ (({ direction := .incoming } : GraphConfig).graphOf t).edges := by
  have htells := boxes.tells_resolver
  have hfits : boxes.Fits .incoming stackRoom 3 (boxes.declaration "start" "method") :=
    Facts.fits_of_le (by decide) _
  obtain ⟨-, t, htree, hedges⟩ := mem_edges_grow_upTo_iff htells callOfStart .incoming ()
    (f := boxes.declaration "start" "method") rfl (by decide) hfits { direction := .incoming }
  have hmethod : (boxes.declaration "start" "method").Eligible false :=
    ⟨⟨.method, rfl, rfl⟩, by decide⟩
  have hfunction : (boxes.declaration "main" "function").Eligible false :=
    ⟨⟨.function, rfl, rfl⟩, by decide⟩
  have hbox : boxes.follow .incoming (boxes.declaration "start" "method") [0] =
      some (boxes.declaration "Box" "class") := rfl
  refine ⟨htells, hfits, t, htree, ?_⟩
  simp only [List.forall_mem_cons, List.not_mem_nil, false_implies, implies_true, and_true]
  refine ⟨(hedges _).mpr (.inl ⟨hmethod, rfl⟩), (hedges _).mpr (.inr ?_), (hedges _).mpr (.inr ?_)⟩
  · exact ⟨[0], _, hbox, by decide, _, List.mem_cons_self, hfunction, rfl⟩
  · exact ⟨[0], _, hbox, by decide, _, List.mem_cons_of_mem _ List.mem_cons_self, hmethod, rfl⟩

/-- **Beyond the stack edges are missing.** `walk` calls itself and then `step`, which is drawn.
With the usual room, the graph for 1500 levels has no edge from the one to the other. -/
theorem edge_missing_beyond_stack :
    (recursive.declaration "step").Eligible false ∧
      (∃ relation ∈ selfFirst.related .outgoing (recursive.declaration "walk"),
        relation.item = recursive.declaration "step") ∧
      ∃ t, ((upTo callOfWalk 1500 stackRoom).grow selfFirst.resolver .outgoing ()).1.tree = some t ∧
        (⟨".:walk:1", ".:step:1"⟩ : Edge) ∉ (({} : GraphConfig).graphOf t).edges := by
  refine ⟨⟨⟨.function, rfl, rfl⟩, by decide⟩, ⟨_, List.mem_cons_of_mem _ List.mem_cons_self, rfl⟩,
    _, grow_selfFirst (by decide) (by decide), fun hedge => ?_⟩
  obtain ⟨parent, hparent, child, hchild, -, heq⟩ := GraphConfig.mem_edges_iff.mp hedge
  -- The node that the edge leads to is one of `walk`.
  have hbelow :
      child ∈ (selfFirst.lineage .outgoing (recursive.declaration "walk") (stackRoom - 1)
        1).preorder := by
    rcases Tree.mem_preorder_iff.mp hparent with rfl | ⟨c, hc, hparent⟩
    · obtain rfl := List.mem_singleton.mp hchild
      exact Tree.self_mem_preorder _
    · obtain rfl := List.mem_singleton.mp hc
      exact Tree.mem_preorder_trans hparent
        (Tree.mem_preorder_of_mem_children hchild (Tree.self_mem_preorder _))
  obtain ⟨j, hdata⟩ := Facts.data_of_mem_lineage hbelow
  have htarget : (".:step:1" : String) = ".:walk:1" := by
    rw [GraphConfig.edgeBetween_eq_arrow] at heq
    have hto := congrArg Edge.target heq
    rwa [show GraphConfig.idOf {} child = ".:walk:1" by rw [GraphConfig.idOf, hdata]; rfl] at hto
  exact absurd htarget (by decide)

end HierarchyPlan

end CallAtlas
