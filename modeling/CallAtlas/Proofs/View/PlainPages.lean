import CallAtlas.Proofs.Graph.Hrefs
import CallAtlas.Proofs.Graph.Links
import CallAtlas.Proofs.View.Requests

/-!
# The links of plain pages

A plain request shows the whole tree of a session, whatever is hidden in it, and so it shows links
of nodes that are hidden. A toggle, on the other hand, only finds nodes that are not. So the links
of a plain page do not all work at every time: one that toggles a node works exactly if no node
above it is closed (`Server.plain_link_works_iff`). In a session in which the root was closed none
works but the one of the root (`Server.plain_link_fails`).

The links are those that can be read off the text for the browser (`Dot.links`), and histories of
requests are arbitrary. What they preserve is that sessions stand under their keys and show prunings
of their trees (`Sessions.Sound`).
-/

namespace CallAtlas

open Dot

/-! ## Hidden nodes -/

namespace Tree

variable {full shown : Tree} {i : Int}

/-- A node lies in one child only. -/
theorem Distinct.child_unique {t c c' : Tree} (h : t.Distinct) (hc : c ∈ t.children)
    (hc' : c' ∈ t.children) (hi : i ∈ c.ids) (hi' : i ∈ c'.ids) : c = c' := by
  obtain ⟨d, cs⟩ := t
  have : Std.Symm fun a b : Tree => List.Disjoint a.ids b.ids := ⟨fun _ _ hab => hab.symm⟩
  by_contra hother
  have hdisjoint := (distinct_node_iff.mp h).2.2.forall hc hc' hother
  exact hdisjoint hi hi'

/-- Above a node that is shown everything is open. Induction on the tree: the node lies in one child
of the root, and so does everything between them. -/
theorem Prunes.exists_open (hd : full.Distinct) (h : Prunes full shown) (hi : i ∈ shown.ids)
    {source c : Tree}
    (hsource : source ∈ full.preorder) (hc : c ∈ source.children) (hic : i ∈ c.ids) :
    ∃ above ∈ shown.preorder, above.id = source.id ∧ above.children ≠ [] := by
  induction full using induct generalizing shown with
  | node d cs ih =>
    obtain ⟨hroot, hin, -⟩ := distinct_node_iff.mp hd
    -- the node is below the root
    obtain ⟨c₁, hc₁, hi₁, hsame⟩ : ∃ c₁ ∈ cs, i ∈ c₁.ids ∧
        (source = .node d cs ∨ source ∈ c₁.preorder) := by
      rcases mem_preorder_iff.mp hsource with rfl | ⟨c₁, hc₁, hsource₁⟩
      · exact ⟨c, hc, hic, .inl rfl⟩
      · obtain ⟨n, hn, rfl⟩ := mem_ids_iff.mp hic
        have hn₁ : n ∈ c₁.preorder :=
          mem_preorder_trans hsource₁ (mem_preorder_of_mem_children hc hn)
        exact ⟨c₁, hc₁, mem_ids_iff.mpr ⟨n, hn₁, rfl⟩, .inr hsource₁⟩
    have hne : i ≠ d.id := fun heq => hroot c₁ hc₁ (heq ▸ hi₁)
    cases h with
    | closed d h =>
      rw [ids_node, List.flatMap_nil, List.mem_singleton] at hi
      exact absurd hi hne
    | @kept _ _ cs' h =>
      rw [ids_node, List.mem_cons, List.mem_flatMap] at hi
      obtain ⟨c', hc', hi'⟩ := hi.resolve_left hne
      rcases hsame with rfl | hsource₁
      · exact ⟨_, self_mem_preorder _, rfl, List.ne_nil_of_mem hc'⟩
      · obtain ⟨as, c₂, bs, -, -, rfl, -, -, hp, -⟩ := forall₂_cut h hc'
        have hc₂ : c₂ ∈ as ++ c₂ :: bs := by simp
        -- the child in which the node is shown is the one in which it lies
        obtain rfl : c₁ = c₂ := hd.child_unique hc₁ hc₂ hi₁ (hp.ids_subset hi')
        obtain ⟨above, habove, hid, hopen⟩ := ih c₁ hc₁ (hin c₁ hc₁) hp hi' hsource₁
        exact ⟨above, mem_preorder_of_mem_children hc' habove, hid, hopen⟩

/-- A node that is not shown lies below one that is shown closed. -/
theorem Prunes.exists_closed (h : Prunes full shown) (hi : i ∈ full.ids) (hnot : i ∉ shown.ids) :
    ∃ above ∈ shown.preorder, above.children = [] ∧
      ∃ source ∈ full.preorder, source.id = above.id ∧ ∃ c ∈ source.children, i ∈ c.ids := by
  induction full using induct generalizing shown with
  | node d cs ih =>
    rw [ids_node, List.mem_cons, List.mem_flatMap] at hi
    cases h with
    | closed d h =>
      obtain ⟨c, hc, hic⟩ := hi.resolve_left fun heq => hnot (by simp [heq])
      exact ⟨_, self_mem_preorder _, rfl, _, self_mem_preorder _, rfl, c, hc, hic⟩
    | @kept _ _ cs' h =>
      rw [ids_node, List.mem_cons, List.mem_flatMap, not_or] at hnot
      obtain ⟨c, hc, hic⟩ := hi.resolve_left hnot.1
      obtain ⟨as', c', bs', -, -, rfl, -, -, hp, -⟩ := forall₂_cut h.flip hc
      have hc' : c' ∈ as' ++ c' :: bs' := by simp
      obtain ⟨above, habove, hclosed, source, hsource, hid, hbelow⟩ :=
        ih c hc hp hic fun hi' => hnot.2 ⟨c', hc', hi'⟩
      exact ⟨above, mem_preorder_of_mem_children hc' habove, hclosed, source,
        mem_preorder_of_mem_children hc hsource, hid, hbelow⟩

end Tree

namespace Session

/-- A node of the whole tree is hidden: a node above it is shown without its children. -/
def Hides (s : Session) (i : Int) : Prop :=
  ∃ above ∈ s.current.preorder, above.children = [] ∧
    ∃ source ∈ s.full.preorder, source.id = above.id ∧ ∃ c ∈ source.children, i ∈ c.ids

/-- A node is shown exactly if it is not hidden. -/
theorem mem_current_iff {s : Session} (hs : s.Sound) {i : Int} (hi : i ∈ s.full.ids) :
    i ∈ s.current.ids ↔ ¬s.Hides i := by
  obtain ⟨hd, hp⟩ := hs
  constructor
  · rintro hshown ⟨above, habove, hclosed, source, hsource, hid, c, hc, hic⟩
    obtain ⟨above', habove', hid', hopen⟩ := hp.exists_open hd hshown hsource hc hic
    rw [Tree.eq_of_id_eq (hp.distinct hd) habove' habove (hid'.trans hid)] at hopen
    exact hopen hclosed
  · intro hnot
    by_contra hhidden
    exact hnot (hp.exists_closed hi hhidden)

/-- The address that toggles a node. -/
def toggleAddress (s : Session) (i : Int) : String :=
  Text.percentEncoded s.key ++ "?id=" ++ toString i

/-- The text for the browser on a plain page. -/
theorem browser_views (s : Session) (config : GraphConfig) : (s.views config true).browser =
    (config.graphOf s.full).dot { interactive := true, baseUrl := Text.percentEncoded s.key } := by
  simp [views, Tree.drawing]

/-- **The links of a plain page** that toggle nodes are those of nodes of the whole tree. -/
theorem mem_full_of_link {s : Session} {config : GraphConfig} {i : Int}
    (h : escapeLabel (s.toggleAddress i) ∈ links (s.views config true).browser) :
    i ∈ s.full.ids := by
  rw [browser_views, CallGraph.links_dot, List.mem_flatMap] at h
  obtain ⟨cluster, hcluster, hlink⟩ := h
  rcases List.mem_cons.mp hlink with hfile | hnode
  · -- behind the same address the link of a cluster asks for a file
    rw [escapeLabel_inj, toggleAddress, DotConfig.clusterLink, if_pos rfl, String.append_assoc,
      String.append_assoc, String.append_right_inj, ← String.toList_inj] at hfile
    simp at hfile
  · obtain ⟨node, hnode, hid⟩ := List.mem_flatMap.mp hnode
    rw [toggleAddress, DotConfig.escapeLabel_link, DotConfig.nodeLinks] at hid
    split at hid
    · rw [List.mem_singleton, String.append_right_inj] at hid
      obtain ⟨n, hn, hfrom⟩ :=
        GraphConfig.exists_of_mem_nodes (GraphConfig.mem_values_of_mem_cluster hcluster hnode)
      have htree : node.treeId = n.id := by rw [hfrom]; rfl
      refine Tree.mem_ids_iff.mpr ⟨n, hn, ?_⟩
      rw [← htree]
      simpa using hid.symm
    · cases hid

end Session

/-! ## Stores -/

/-- A tree that was grown from a call site, by some resolver. -/
def Tree.IsGrown (t : Tree) : Prop :=
  ∃ (σ : Type) (plan : HierarchyPlan) (r : Resolver σ) (direction : Direction) (state : σ),
    (plan.grow r direction state).1.tree = some t

namespace Sessions

/-- A store to which trees of a kind were added, one after the other. -/
inductive BuiltFrom (P : Tree → Prop) : Sessions → Prop
  | empty : BuiltFrom P .empty
  | add {sessions : Sessions} (h : BuiltFrom P sessions) (key : String) {tree : Tree}
      (htree : P tree) :
    BuiltFrom P (sessions.add key tree).1

/-- The sessions of a list of trees are built from them. -/
theorem builtFrom_ofTrees {P : Tree → Prop} {trees : List (CallSite × Tree)}
    (h : ∀ e ∈ trees, P e.2) (root : Option Path) : BuiltFrom P (ofTrees trees root).1 := by
  unfold ofTrees
  refine List.foldlRecOn (motive := fun state : Sessions × List LogEntry => BuiltFrom P state.1)
    trees _ .empty ?_
  intro state hstate e he
  exact hstate.add _ (h e he)

/-- Every session stands under its own key and shows a pruning of its tree. -/
def Sound (sessions : Sessions) : Prop :=
  ∀ key s, sessions.get? key = some s → s.key = key ∧ s.Sound

theorem Sound.put {sessions : Sessions} (h : sessions.Sound) {s : Session} (hs : s.Sound) :
    Sound (Table.put sessions s.key s) := by
  intro key found hfound
  rw [Table.get?_put] at hfound
  split at hfound
  next hkey =>
    cases hfound
    exact ⟨hkey.symm, hs⟩
  next => exact h key found hfound

theorem BuiltFrom.sound {sessions : Sessions} (h : BuiltFrom Tree.IsGrown sessions) :
    sessions.Sound := by
  induction h with
  | empty =>
    intro key s hs
    cases hs
  | @add sessions _ key tree htree ih =>
    obtain ⟨σ, plan, r, direction, state, hgrown⟩ := htree
    unfold Sessions.add
    split
    · exact ih
    · exact ih.put (Session.sound_new key (HierarchyPlan.distinct_of_grow hgrown))

end Sessions

namespace Server

variable {server : Server}

/-- Whatever is requested, sessions stay sound. -/
theorem sound_respond (h : server.sessions.Sound) (fs : FileSystem) (request : Request) :
    (server.respond fs request).2.sessions.Sound := by
  rcases respond_toggles server fs request with hserver | ⟨path, s, id, next, hs, hnext, hserver⟩
  · rw [hserver]
    exact h
  · rw [hserver]
    refine h.put ?_
    rcases Session.toggle_cases (h path s hs).2 id with ⟨-, hfails⟩ | ⟨-, shown, -, hok, hprunes⟩
    · rw [hfails] at hnext
      cases hnext
    · rw [hok] at hnext
      cases hnext
      exact ⟨(h path s hs).2.1, hprunes⟩

theorem sound_after (h : server.sessions.Sound) (history : List (FileSystem × Request)) :
    (server.after history).sessions.Sound ∧ (server.after history).config = server.config := by
  induction history generalizing server with
  | nil => exact ⟨h, rfl⟩
  | cons first rest ih =>
    obtain ⟨hsound, hconfig⟩ := ih (sound_respond h first.1 first.2)
    exact ⟨hsound, hconfig.trans (server.respond_frame first.1 first.2).2⟩

/-- **Which links of a plain page work.** The sessions of a server, on any framework, were built
from grown trees, and any history of requests has passed. A plain request for a session is answered
with the page of its whole tree. Let the text for the browser have a link that toggles a node. If
this link is followed next, the answer is a page exactly if the node is not hidden; otherwise it is
an error, and no session changes. -/
theorem plain_link_works_iff (framework : Framework) {sessions : Sessions}
    (hbuilt : sessions.BuiltFrom Tree.IsGrown)
    (config : GraphConfig) (history : List (FileSystem × Request)) {key : String} {s : Session}
    (hs : (Server.after ⟨framework, sessions, config⟩ history).sessions.get? key = some s)
    {plain press : Request}
    (hplain : framework.Asks plain key) (hid : plain.nodeId? = none) (hfile : plain.file? = none)
    {i : Int} (hlink : escapeLabel (s.toggleAddress i) ∈ links (s.views config true).browser)
    (hpress : framework.Asks press key) (hpressed : press.nodeId? = some i) (fs fs' : FileSystem) :
    let server := Server.after ⟨framework, sessions, config⟩ history
    let next := (server.respond fs plain).2
    (server.respond fs plain).1 =
        .ok (.page (Page.graph key (s.views config true).browser (s.views config true).download)) ∧
      ∃ response, (next.respond fs' press).1 = .ok response ∧ (response.status = 200 ↔ ¬s.Hides i) ∧
        (s.Hides i → response.status = 500 ∧ (next.respond fs' press).2 = server) := by
  intro server next
  obtain ⟨hsound, hconfig⟩ : server.sessions.Sound ∧ server.config = config :=
    sound_after hbuilt.sound history
  have hframework : server.framework = framework := (after_frame _ history).1
  have hasks : server.framework.Asks plain key ∧ server.framework.Asks press key := by
    rw [hframework]
    exact ⟨hplain, hpress⟩
  obtain ⟨hkey, hshown⟩ := hsound key s hs
  rw [Request.nodeId?] at hid hpressed
  rw [Request.file?] at hfile
  have hpage : server.respond fs plain = (.ok (server.sessionPage s true), server) := by
    rw [respond_of_asks hasks.1 hs fs, showSession, hid, hfile]
  have hnext : next = server := congrArg Prod.snd hpage
  have hmem := Session.mem_current_iff hshown (Session.mem_full_of_link hlink)
  -- The plain request changes nothing, so the link is followed in the same state.
  refine ⟨?_, ?_⟩
  · rw [hpage, sessionPage, hconfig, hkey]
  · rw [hnext, respond_of_asks hasks.2 hs fs', showSession, hpressed]
    rcases Session.toggle_cases hshown i with ⟨hnot, hfails⟩ | ⟨hin, shown, -, hok, -⟩
    · have hhidden : s.Hides i := not_not.mp fun h => hnot (hmem.mpr h)
      have herror : (500 : Nat) ≠ 200 := by decide
      simp only [hfails]
      exact ⟨_, rfl, ⟨fun h => absurd h herror, fun h => absurd hhidden h⟩, fun _ => ⟨rfl, trivial⟩⟩
    · have hvisible : ¬s.Hides i := hmem.mp hin
      simp only [hok]
      exact ⟨_, rfl, ⟨fun _ => hvisible, fun _ => rfl⟩, fun h => absurd h hvisible⟩

/-! ## A call on two levels -/

/-- The server of the call of `walk`, on two levels. -/
def walkServer : Server where
  framework := .standard id
  sessions := (Sessions.ofTrees [(HierarchyPlan.callOfWalk, HierarchyPlan.walkOnTwoLevels)] none).1
  config := {}

/-- Its session after some toggles. -/
def walkAfter (presses : List Int) : Session :=
  ({ key := "/./walk:7", full := HierarchyPlan.walkOnTwoLevels } : Session).after presses

/-- The request that toggles a node of it. -/
def walkPress (id : String) : Request where
  path := "/./walk:7"
  params := [("id", id)]

theorem builtFrom_walk : walkServer.sessions.BuiltFrom Tree.IsGrown := by
  refine Sessions.builtFrom_ofTrees (fun e he => ?_) none
  rw [List.mem_singleton.mp he]
  exact ⟨Unit, .upTo HierarchyPlan.callOfWalk 2 stackRoom,
    HierarchyPlan.recursive.resolver, .outgoing, (),
    HierarchyPlan.grow_recursive_two (by decide)⟩

theorem documented_walk : walkServer.framework.Documented := Framework.documented_standard id

theorem proper_walk (params : List (String × String)) :
    ({ path := "/./walk:7", params } : Request).Proper where
  slash := (by decide : "/./walk:7".toList.head? = some '/')
  line := (by decide : '\n' ∉ "/./walk:7".toList)

theorem asks_walk (params : List (String × String)) :
    walkServer.framework.Asks { path := "/./walk:7", params } "/./walk:7" :=
  have hpages : "/./walk:7" ∉ walkServer.framework.pages := by decide
  documented_walk.asks (proper_walk params) rfl (by simp) hpages

/-- What is left of the session after a toggle. -/
theorem get?_walk {id : String} {i : Int} (hid : (walkPress id).nodeId? = some i) :
    (walkServer.after [({}, walkPress id)]).sessions.get? "/./walk:7" = some (walkAfter [i]) := by
  have hkeyed : walkServer.sessions.Keyed := fun key s hs => (builtFrom_walk.sound key s hs).1
  have hpages : "/./walk:7" ∉ walkServer.framework.pages := by decide
  have htoggle : walkServer.framework.toggleOf? (walkPress id) "/./walk:7" = some i := by
    rw [Framework.toggleOf?, if_pos ⟨rfl, rfl, by decide, hpages⟩, hid]
  have hafter := get?_respond documented_walk hkeyed {} (proper_walk [("id", id)]) "/./walk:7"
  rw [← walkPress, htoggle] at hafter
  exact hafter

/-- The plain page has a link for `walk`, whatever is hidden. -/
theorem walk_link (presses : List Int) :
    escapeLabel ((walkAfter presses).toggleAddress 1) ∈ links
      ((walkAfter presses).views {} true).browser := by
  obtain ⟨hkey, hfull⟩ : (walkAfter presses).key = "/./walk:7" ∧
      (walkAfter presses).full = HierarchyPlan.walkOnTwoLevels := Session.after_keeps _ presses
  rw [Session.browser_views, CallGraph.links_dot, Session.toggleAddress, hkey, hfull]
  decide +kernel

theorem sound_walk (presses : List Int) : (walkAfter presses).Sound :=
  (Session.after_sound (Session.sound_new _ (by decide +kernel)) presses).1

/-- After `walk` was closed its link on the plain page works. -/
theorem plain_link_works_iff_walk :
    walkServer.sessions.BuiltFrom Tree.IsGrown ∧
      ∃ s, (walkServer.after [({}, walkPress "1")]).sessions.get? "/./walk:7" = some s ∧
        escapeLabel (s.toggleAddress 1) ∈ links (s.views {} true).browser ∧
        ∃ response,
        (((walkServer.after [({}, walkPress "1")]).respond {} { path := "/./walk:7" }).2.respond {}
          (walkPress "1")).1 = .ok response ∧ response.status = 200 := by
  have hpressed : (walkPress "1").nodeId? = some 1 := by decide +kernel
  have hs := get?_walk hpressed
  obtain ⟨-, response, hresponse, hstatus, -⟩ :=
    plain_link_works_iff _ builtFrom_walk {} [({}, walkPress "1")] hs
    (asks_walk []) rfl rfl (walk_link [1]) (asks_walk _) hpressed {} {}
  have hshown : 1 ∈ (walkAfter [1]).current.ids := by decide +kernel
  have hvisible :=
    (Session.mem_current_iff (sound_walk [1]) (Session.mem_full_of_link (walk_link [1]))).mp hshown
  exact ⟨builtFrom_walk, _, hs, walk_link [1], response, hresponse, hstatus.mpr hvisible⟩

/-- After the call itself was closed, the plain page still has a link for `walk`, which then is
answered with an error. -/
theorem plain_link_fails :
    walkServer.sessions.BuiltFrom Tree.IsGrown ∧
      ∃ s, (walkServer.after [({}, walkPress "0")]).sessions.get? "/./walk:7" = some s ∧
        escapeLabel (s.toggleAddress 1) ∈ links (s.views {} true).browser ∧
        (((walkServer.after [({}, walkPress "0")]).respond {} { path := "/./walk:7" }).2.respond {}
          (walkPress "1")).1 =
            .ok { status := 500, body := .text "node id 1 was not found in the current tree" } := by
  have hclosed : (walkPress "0").nodeId? = some 0 := by decide +kernel
  have hpressed : nodeId? ((walkPress "1").param? "id") = some 1 := by decide +kernel
  have hs := get?_walk hclosed
  have hhidden : 1 ∉ (walkAfter [0]).current.ids := by decide +kernel
  refine ⟨builtFrom_walk, _, hs, walk_link [0], ?_⟩
  rcases Session.toggle_cases (sound_walk [0]) 1 with ⟨-, hfails⟩ | ⟨hshown, -⟩
  · have hframework : (walkServer.after [({}, walkPress "0")]).framework = walkServer.framework :=
      (after_frame _ _).1
    have hplain : ((walkServer.after [({}, walkPress "0")]).respond {} { path := "/./walk:7" }).2 =
        walkServer.after [({}, walkPress "0")] := by
      rw [respond_of_asks (hframework ▸ asks_walk []) hs {}]
      rfl
    have hasks :
        (walkServer.after [({}, walkPress "0")]).framework.Asks (walkPress "1") "/./walk:7" :=
      hframework ▸ asks_walk [("id", "1")]
    rw [hplain, respond_of_asks hasks hs {}, showSession, hpressed]
    simp only [hfails]
    rfl
  · exact absurd hshown hhidden

end Server

end CallAtlas
