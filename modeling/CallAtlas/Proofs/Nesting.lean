import CallAtlas.Proofs.Integrity
import CallAtlas.Proofs.Source.Addresses
import CallAtlas.Proofs.Text.Delimited
import Mathlib

/-!
# The symbols of one file

The walk that lists the symbols of a file carries along the definitions around it, each with its
name and kind. What it carries at a place is what stands on the way there (`Node.stackAt`): for a
place inside of a definition it is what was carried at that definition and the definition itself
(`Node.Encloses.stackAt_eq`), and elsewhere it is empty (`Node.stackAt_of_none`). So a symbol
continues the identifier and the container of the symbol around it, and its kind depends on that
symbol alone (`nestedIn_definitionSymbol`).

There is one symbol for every definition, and they come in the order of the walk
(`forall₂_declarations`). Together this is `declarations_nested`.
-/

namespace CallAtlas

open Source Text

/-! ## What the walk carries along -/

namespace Source.Node

/-- The definitions around the parts of a node, given those around the node. -/
def stacked (outer : List (String × SymbolKind)) : Node → List (String × SymbolKind)
  | .definition head _ _ => outer ++ [(head.name, head.kind.symbolKind outer)]
  | .name _ _ | .member _ _ _ | .call _ _ _ | .imports _ _ | .other _ _ => outer

theorem stacked_of_not_isDefinition {tree : Node} (h : ¬ tree.IsDefinition)
    (outer : List (String × SymbolKind)) :
    tree.stacked outer = outer := by
  cases tree with
  | definition head parts extent => exact absurd ⟨head, parts, extent, rfl⟩ h
  | name => rfl
  | imports => rfl
  | member => rfl
  | call => rfl
  | other => rfl

/-- The definitions around the place with an address, given those around the tree. -/
def stackAt (outer : List (String × SymbolKind)) : Node → List Nat → List (String × SymbolKind)
  | _, [] => outer
  | tree, i :: rest =>
    match tree.parts[i]? with
    | none => tree.stacked outer
    | some part => stackAt (tree.stacked outer) part rest

theorem stackAt_cons {tree part : Node} {i : Nat} (h : tree.parts[i]? = some part)
    (outer : List (String × SymbolKind)) (rest : List Nat) :
    tree.stackAt outer (i :: rest) = part.stackAt (tree.stacked outer) rest := by
  simp only [stackAt, h]

theorem stackAt_append {tree node : Node} {a : List Nat} (h : tree.partAt? a = some node)
    (outer : List (String × SymbolKind)) (b : List Nat) :
    tree.stackAt outer (a ++ b) = node.stackAt (tree.stackAt outer a) b := by
  induction a generalizing tree outer with
  | nil =>
    cases h
    rfl
  | cons i a ih =>
    obtain ⟨part, hpart, h⟩ := Option.bind_eq_some_iff.mp h
    rw [List.cons_append, stackAt_cons hpart, stackAt_cons hpart, ih h]

/-- Where no definition is on the way to a place, nothing is added. -/
theorem stackAt_of_none {tree : Node} {a : List Nat}
    (h : ∀ c, c <+: a → c ≠ a → ¬ tree.DefinitionAt c)
    (outer : List (String × SymbolKind)) : tree.stackAt outer a = outer := by
  induction a generalizing tree outer with
  | nil => rfl
  | cons i a ih =>
    have hroot : ¬ tree.IsDefinition := fun hdefinition =>
      h [] (List.nil_prefix) (List.cons_ne_nil i a).symm (definitionAt_nil.mpr hdefinition)
    cases hpart : tree.parts[i]? with
    | none =>
      simp only [stackAt, hpart]
      exact stacked_of_not_isDefinition hroot outer
    | some part =>
      rw [stackAt_cons hpart, stacked_of_not_isDefinition hroot]
      refine ih (fun c hc hne hat => ?_) outer
      exact h (i :: c) (List.cons_prefix_cons.mpr ⟨rfl, hc⟩) (fun heq => hne (List.cons.inj heq).2)
        (definitionAt_cons_iff.mpr ⟨part, hpart, hat⟩)

/-- **The innermost definition around a place** is the last that the walk carries there, after those
around itself. -/
theorem Encloses.stackAt_eq {tree : Node} {a b : List Nat} (h : tree.Encloses b a)
    (outer : List (String × SymbolKind)) :
    ∃ head parts extent, tree.partAt? b = some (.definition head parts extent) ∧
      tree.stackAt outer a =
        tree.stackAt outer b ++ [(head.name, head.kind.symbolKind (tree.stackAt outer b))] := by
  obtain ⟨node, hnode, head, parts, extent, rfl⟩ := h.definition
  obtain ⟨⟨rest, rfl⟩, hne⟩ := h.above
  refine ⟨head, parts, extent, hnode, ?_⟩
  rw [stackAt_append hnode]
  cases rest with
  | nil => exact absurd (List.append_nil b).symm hne
  | cons i rest =>
    cases hpart : parts[i]? with
    | none =>
      have hpart' : (Node.definition head parts extent).parts[i]? = none := hpart
      simp only [stackAt, hpart']
      rfl
    | some part =>
      have hpart' : (Node.definition head parts extent).parts[i]? = some part := hpart
      rw [stackAt_cons hpart']
      -- a definition further in would lie above the innermost one
      refine stackAt_of_none (fun c hc hne' hat => ?_) _
      have hdefinition : tree.DefinitionAt (b ++ i :: c) := by
        obtain ⟨node, hc, hnode'⟩ := hat
        refine ⟨node, ?_, hnode'⟩
        rw [partAt?_append, hnode, Option.bind_some, partAt?_cons hpart', hc]
      have hprefix : b ++ i :: c <+: b ++ i :: rest :=
        (List.prefix_append_right_inj b).mpr (List.cons_prefix_cons.mpr ⟨rfl, hc⟩)
      have hlonger :=
        (h.innermost _ hprefix (fun heq => hne' (by simpa using heq)) hdefinition).length_le
      simp at hlonger

end Source.Node

/-! ## A symbol and the one around it -/

/-- The dotted name of a symbol in its module. -/
def Symbol.dottedName (s : Symbol) : String :=
  match s.container with
  | none => s.name
  | some container => container ++ "." ++ s.name

/-- A symbol continues the one of the definition directly around it. -/
structure Symbol.NestedIn (s around : Symbol) : Prop where
  id : s.id = around.id ++ "." ++ s.name
  container : s.container = some around.dottedName
  method_iff : s.kind.isCallable = true → (s.kind = .method ↔ around.kind = .classLike)
  localFunction_iff : s.kind.isCallable = true →
    (s.kind = .localFunction ↔ around.kind.isCallable = true)

/-- One more name at the end of others. -/
theorem intercalate_dot_concat {names : List String} (h : names ≠ []) (name : String) :
    ".".intercalate (names ++ [name]) = ".".intercalate names ++ "." ++ name := by
  rw [← String.toList_inj, toList_intercalate_append "." [name] h]
  simp

theorem dotted?_concat (names : List String) (name : String) :
    dotted? (names ++ [name]) = some (match dotted? names with
      | none => name
      | some container => container ++ "." ++ name) := by
  cases names with
  | nil => rfl
  | cons first rest =>
    rw [dotted?, if_neg (by simp), intercalate_dot_concat (List.cons_ne_nil first rest)]
    rfl

theorem symbolId_append (qualname name : String) (file : Path) :
    symbolId (qualname ++ "." ++ name) file = symbolId qualname file ++ "." ++ name := by
  unfold symbolId
  split
  · simp only [String.append_assoc]
  · rfl

namespace Source.DefinitionKind

variable (kind : DefinitionKind) (outer : List (String × SymbolKind))

theorem symbolKind_eq_classLike_iff : kind.symbolKind outer = .classLike ↔ kind = .classLike := by
  unfold symbolKind
  split
  · simp
  next hkind =>
    split
    · simpa using hkind
    · simpa using hkind
    · simpa using hkind

theorem isCallable_symbolKind : (kind.symbolKind outer).isCallable = true ↔ kind ≠ .classLike := by
  unfold symbolKind
  split
  · simp [SymbolKind.isCallable]
  next hkind =>
    split
    · simpa [SymbolKind.isCallable] using hkind
    · simpa [SymbolKind.isCallable] using hkind
    · simpa [SymbolKind.isCallable] using hkind

theorem symbolKind_nil {kind : DefinitionKind} (h : kind ≠ .classLike) :
    kind.symbolKind [] = .function := by
  cases kind with
  | function => rfl
  | asyncFunction => rfl
  | classLike => exact absurd rfl h

/-- The kind of a function depends on the last of the definitions around it. -/
theorem symbolKind_concat {kind : DefinitionKind} (h : kind ≠ .classLike) (name : String)
    (last : SymbolKind) :
    kind.symbolKind (outer ++ [(name, last)]) = if last = .classLike then .method
      else .localFunction := by
  unfold symbolKind
  rw [List.getLast?_concat]
  cases kind with
  | classLike => exact absurd rfl h
  | function => cases last <;> rfl
  | asyncFunction => cases last <;> rfl

end Source.DefinitionKind

section

variable {file : Path} {index : LineIndex} {head head' : Definition} {extent extent' : Extent}

/-- Inside of a definition a symbol has a container. -/
theorem container_definitionSymbol_concat (outer : List (String × SymbolKind))
    (last : String × SymbolKind) :
    (definitionSymbol file index (outer ++ [last]) head extent).container ≠ none := by
  show dotted? ((outer ++ [last]).map Prod.fst) ≠ none
  rw [List.map_append, List.map_singleton, dotted?_concat]
  exact Option.some_ne_none _

/-- **A symbol inside of a definition continues the symbol of that definition.** -/
theorem nestedIn_definitionSymbol (outer : List (String × SymbolKind)) :
    (definitionSymbol file index (outer ++ [(head.name, head.kind.symbolKind outer)]) head'
      extent').NestedIn
      (definitionSymbol file index outer head extent) where
  id := by
    rw [definitionSymbol_id, definitionSymbol_id, List.map_append, List.map_singleton,
      intercalate_dot_concat (by simp), symbolId_append]
    rfl
  container := by
    show dotted? ((outer ++ [(head.name, head.kind.symbolKind outer)]).map Prod.fst) = _
    rw [List.map_append, List.map_singleton, dotted?_concat]
    rfl
  method_iff hcallable := by
    show head'.kind.symbolKind _ = .method ↔ head.kind.symbolKind outer = .classLike
    rw [DefinitionKind.symbolKind_concat outer
      ((DefinitionKind.isCallable_symbolKind _ _).mp hcallable)]
    split
    next hclass => simp [hclass]
    next hclass => simp [hclass]
  localFunction_iff hcallable := by
    show head'.kind.symbolKind _ = .localFunction ↔ (head.kind.symbolKind outer).isCallable = true
    rw [DefinitionKind.symbolKind_concat outer
      ((DefinitionKind.isCallable_symbolKind _ _).mp hcallable),
      DefinitionKind.isCallable_symbolKind, ne_eq,
      ← DefinitionKind.symbolKind_eq_classLike_iff head.kind outer]
    split
    next hclass => simp [hclass]
    next hclass => simp [hclass]

/-- A function is a plain one exactly if its symbol has no container. -/
theorem kind_definitionSymbol_eq_function_iff (outer : List (String × SymbolKind))
    (h : (definitionSymbol file index outer head extent).kind.isCallable = true) :
    (definitionSymbol file index outer head extent).kind = .function ↔
      (definitionSymbol file index outer head extent).container = none := by
  have hkind : head.kind ≠ .classLike := (DefinitionKind.isCallable_symbolKind _ _).mp h
  induction outer using List.reverseRecOn with
  | nil => exact iff_of_true (DefinitionKind.symbolKind_nil hkind) rfl
  | append_singleton outer last _ =>
    refine iff_of_false ?_ (container_definitionSymbol_concat outer last)
    show head.kind.symbolKind _ ≠ .function
    rw [DefinitionKind.symbolKind_concat outer hkind last.1]
    split
    · simp
    · simp

end

/-! ## All symbols -/

section

variable {α β : Type}

/-- What stands at the same number of two related lists is related. -/
theorem related_of_getElem? {R : α → β → Prop} {xs : List α} {ys : List β} {x : α} {y : β} {i : Nat}
    (h : List.Forall₂ R xs ys) (hx : xs[i]? = some x) (hy : ys[i]? = some y) : R x y := by
  obtain ⟨hi, rfl⟩ := List.getElem?_eq_some_iff.mp hx
  obtain ⟨hi', rfl⟩ := List.getElem?_eq_some_iff.mp hy
  exact h.get hi hi'

/-- In an increasing list, what is smaller has a smaller number. -/
theorem lt_of_getElem?_lt [LinearOrder α] {xs : List α} (h : xs.Pairwise (· < ·))
    {i j : Nat} {x y : α} (hx : xs[i]? = some x) (hy : xs[j]? = some y) (hlt : x < y) : i < j := by
  obtain ⟨hi, rfl⟩ := List.getElem?_eq_some_iff.mp hx
  obtain ⟨hj, rfl⟩ := List.getElem?_eq_some_iff.mp hy
  by_contra hle
  rcases Nat.lt_or_eq_of_le (Nat.le_of_not_lt hle) with hji | rfl
  · exact lt_asymm hlt (List.pairwise_iff_getElem.mp h j i hj hi hji)
  · exact lt_irrefl _ hlt

end

/-- A symbol is that of the definition at an address, given the definitions around the tree. -/
def IsSymbolAt (file : Path) (index : LineIndex) (outer : List (String × SymbolKind))
    (tree : Node) (a : List Nat)
    (s : Symbol) : Prop :=
  ∃ head parts extent, tree.partAt? a = some (.definition head parts extent) ∧
    s = definitionSymbol file index (tree.stackAt outer a) head extent

/-- What holds of the parts of a list holds of their places and symbols together. -/
theorem forall₂_definitionPlacesFrom {R : Node → List Nat → Symbol → Prop}
    {symbols : Node → List Symbol} {parts : List Node}
    (h : ∀ part ∈ parts, List.Forall₂ (R part) part.definitionPlaces (symbols part)) (i : Nat) :
    List.Forall₂ (fun a s => ∃ j part rest, parts[j]? = some part ∧
      a = (i + j) :: rest ∧ R part rest s)
      (Node.definitionPlacesFrom i parts) (parts.flatMap symbols) := by
  induction parts generalizing i with
  | nil => exact .nil
  | cons first parts ih =>
    obtain ⟨hfirst, hparts⟩ := List.forall_mem_cons.mp h
    rw [Node.definitionPlacesFrom, List.flatMap_cons]
    refine List.rel_append ?_ ?_
    · rw [List.forall₂_map_left_iff]
      exact hfirst.imp fun rest s hs => ⟨0, first, rest, rfl, rfl, hs⟩
    · refine (ih hparts (i + 1)).imp ?_
      rintro a s ⟨j, part, rest, hpart, rfl, hs⟩
      exact ⟨j + 1, part, rest, hpart, by rw [Nat.add_right_comm, Nat.add_assoc], hs⟩

theorem declarations_of_not_isDefinition {tree : Node} (h : ¬ tree.IsDefinition) (file : Path)
    (index : LineIndex) (outer : List (String × SymbolKind)) :
    declarations file index outer tree = tree.parts.flatMap (declarations file index outer) := by
  cases tree with
  | definition head parts extent => exact absurd ⟨head, parts, extent, rfl⟩ h
  | name => rfl
  | imports => rfl
  | member receiver id extent => rw [declarations, Node.parts, List.flatMap_singleton]
  | call callee arguments extent =>
    rw [declarations, Node.parts, List.flatMap_cons, declarationsOfAll_eq_flatMap]
  | other parts extent => rw [declarations, Node.parts, declarationsOfAll_eq_flatMap]

/-- **The symbols of a tree are those of its definitions**, one for each and in their order.
Induction on the tree: what the walk carries into a part is what stands on the way to the places in
it. -/
theorem forall₂_declarations (file : Path) (index : LineIndex) (outer : List (String × SymbolKind))
    (tree : Node) :
    List.Forall₂ (IsSymbolAt file index outer tree) tree.definitionPlaces
      (declarations file index outer tree) := by
  induction tree using Node.induction_on_parts generalizing outer with
  | step tree ih =>
  have hparts :
      List.Forall₂ (IsSymbolAt file index outer tree) (Node.definitionPlacesFrom 0 tree.parts)
      (tree.parts.flatMap (declarations file index (tree.stacked outer))) := by
    refine (forall₂_definitionPlacesFrom
      (fun part hpart => ih part hpart (tree.stacked outer)) 0).imp ?_
    rintro a s ⟨j, part, rest, hpart, rfl, head, parts, extent, hat, rfl⟩
    refine ⟨head, parts, extent, ?_, ?_⟩
    · rw [Nat.zero_add, Node.partAt?_cons hpart, hat]
    · rw [Nat.zero_add, Node.stackAt_cons hpart]
  by_cases hdefinition : tree.IsDefinition
  · rw [Node.definitionPlaces_of_isDefinition hdefinition]
    obtain ⟨head, parts, extent, rfl⟩ := hdefinition
    rw [declarations, declarationsOfAll_eq_flatMap]
    exact .cons ⟨head, parts, extent, rfl, rfl⟩ hparts
  · rw [Node.definitionPlaces_of_not_isDefinition hdefinition,
      declarations_of_not_isDefinition hdefinition]
    rwa [Node.stacked_of_not_isDefinition hdefinition] at hparts

/-- What a symbol says about the definition at an address: its name and lines, and whether it is a
class or a function. -/
def Symbol.Declares (s : Symbol) (tree : Node) (a : List Nat) : Prop :=
  ∃ head parts extent, tree.partAt? a = some (.definition head parts extent) ∧
    s.name = head.name ∧ s.startLine = extent.start.line ∧ s.endLine = extent.stop.line ∧
    (s.kind = .classLike ↔ head.kind = .classLike) ∧
    (s.kind.isCallable = true ↔ head.kind ≠ .classLike)

/-- **The structure of the symbols of a file.** For every syntax tree, the symbols correspond one to
one to the definitions in the tree, in the order of their addresses, so that each comes before those
nested in it. Let `s` be the symbol of a definition. It has no container exactly if no definition is
around; a function is then a plain function, and otherwise it is not. The definition directly
around, if there is one, has its symbol before `s`, and `s` continues its identifier and its
container, and is a method in a class and a local function in a function. -/
theorem declarations_nested (file : Path) (index : LineIndex) (tree : Node) :
    ∃ places : List (List Nat), places.Pairwise (· < ·) ∧ (∀ a, a ∈ places ↔ tree.DefinitionAt a) ∧
      places.length = (declarations file index [] tree).length ∧
      ∀ (i : Nat) (a : List Nat) (s : Symbol), places[i]? = some a →
      (declarations file index [] tree)[i]? = some s →
        s.Declares tree a ∧
        (s.container = none ↔ ∀ b, ¬ tree.Encloses b a) ∧
        (s.kind.isCallable = true → (s.kind = .function ↔ s.container = none)) ∧
        ∀ b, tree.Encloses b a → ∃ j < i, ∃ around : Symbol, places[j]? = some b ∧
          (declarations file index [] tree)[j]? = some around ∧ s.NestedIn around := by
  have hsymbols := forall₂_declarations file index [] tree
  refine ⟨tree.definitionPlaces, tree.pairwise_definitionPlaces,
    fun a => Node.mem_definitionPlaces_iff, hsymbols.length_eq, fun i a s ha hs => ?_⟩
  obtain ⟨head, parts, extent, hat, rfl⟩ := related_of_getElem? hsymbols ha hs
  refine ⟨⟨head, parts, extent, hat, rfl, rfl, rfl, DefinitionKind.symbolKind_eq_classLike_iff _ _,
    DefinitionKind.isCallable_symbolKind _ _⟩, ?_, kind_definitionSymbol_eq_function_iff _,
    fun b hb => ?_⟩
  · constructor
    · intro hcontainer b hb
      obtain ⟨head', -, -, -, hstack⟩ := hb.stackAt_eq []
      rw [hstack] at hcontainer
      exact container_definitionSymbol_concat _ _ hcontainer
    · intro hnone
      have hstack :=
        Node.stackAt_of_none ((tree.exists_encloses_or a).resolve_left (not_exists.mpr hnone)) []
      rw [hstack]
      rfl
  · obtain ⟨j, hj⟩ := List.getElem?_of_mem (Node.mem_definitionPlaces_iff.mpr hb.definition)
    have hlt : j < i := lt_of_getElem?_lt tree.pairwise_definitionPlaces hj ha hb.lt
    obtain ⟨around, haround⟩ : ∃ around, (declarations file index [] tree)[j]? = some around := by
      have hlength : j < (declarations file index [] tree).length := by
        rw [← hsymbols.length_eq]
        exact (List.getElem?_eq_some_iff.mp hj).1
      exact ⟨_, List.getElem?_eq_getElem hlength⟩
    refine ⟨j, hlt, around, hj, haround, ?_⟩
    obtain ⟨head', parts', extent', hat', rfl⟩ := related_of_getElem? hsymbols hj haround
    obtain ⟨head'', parts'', extent'', hat'', hstack⟩ := hb.stackAt_eq []
    cases hat'.symm.trans hat''
    rw [hstack]
    exact nestedIn_definitionSymbol _

/-- A class below a condition, with a method that holds a function and a class, which has a method
again. -/
def conditionalClass : Node :=
  .other [.other [.definition { kind := .classLike, name := "A" } [.other [
    .definition { kind := .function, name := "f" }
      [.definition { kind := .asyncFunction, name := "g" } [] default,
      .definition { kind := .classLike, name := "B" }
        [.definition { kind := .function, name := "h" } [] default] default]
      default] default] default] default] default

example : (declarations { parts := ["m.pyi"] } (.ofText []) [] conditionalClass).map
    (fun s => (s.id, s.kind, s.container)) =
      [("stub:m.A", .classLike, none), ("stub:m.A.f", .method, some "A"),
        ("stub:m.A.f.g", .localFunction, some "A.f"),
        ("stub:m.A.f.B", .classLike, some "A.f"), ("stub:m.A.f.B.h", .method, some "A.f.B")] := by
  decide +kernel

end CallAtlas
