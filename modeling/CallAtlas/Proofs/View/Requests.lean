import CallAtlas.Proofs.Pruning
import CallAtlas.Proofs.Table
import CallAtlas.View.Http

/-!
# Histories of requests

A server answers one request after the other, and what it remembers are its sessions. Of a whole
history, a session only notices the requests that ask for one of its nodes: its state is that of the
toggles they ask for, one after the other, and every other request leaves it as it is
(`Server.sessions_independent`). So sessions do not notice each other, and a plain request for a
session gets the same page at every point of a history, because it shows the whole tree, which no
toggle changes.

- `Framework.Documented.asks_or`: where a framework that is as documented leads a request;
- `Server.get?_respond`: what one request does to the session under a key;
- `Server.get?_after`: what a history does to it;
- `Server.sessions_not_by_path`: the path of a request and the key of a session are not simply
  compared. The index is served at `/`, whatever session has that key.
-/

namespace CallAtlas

/-! ## Sessions under their keys -/

namespace Sessions

/-- Every session stands under its own key. -/
def Keyed (sessions : Sessions) : Prop := ∀ key s, sessions.get? key = some s → s.key = key

theorem Keyed.put {sessions : Sessions} (h : sessions.Keyed) (s : Session) :
    Keyed (Table.put sessions s.key s) := by
  intro key found hfound
  rw [Table.get?_put] at hfound
  split at hfound
  next hkey =>
    cases hfound
    exact hkey.symm
  next => exact h key found hfound

theorem keyed_empty : Keyed .empty := by
  intro key s h
  cases h

/-- Adding a tree keeps sessions under their keys. -/
theorem Keyed.add {sessions : Sessions} (h : sessions.Keyed) (key : String) (tree : Tree) :
    (sessions.add key tree).1.Keyed := by
  unfold Sessions.add
  split
  · exact h
  · exact h.put { key, full := tree }

end Sessions

namespace Session

/-- A toggle changes what is shown and nothing else. -/
theorem toggle_eq_ok {s next : Session} {id : Int} (h : s.toggle id = .ok next) :
    next.key = s.key ∧ next.full = s.full := by
  unfold toggle at h
  cases hcurrent : s.current.find id "the current tree" with
  | error e =>
    rw [hcurrent] at h
    cases h
  | ok target =>
    cases hfull : s.full.find id "the original tree" with
    | error e =>
      rw [hcurrent, hfull] at h
      cases h
    | ok source =>
      rw [hcurrent, hfull] at h
      cases h
      exact ⟨rfl, rfl⟩

theorem press_keeps (s : Session) (id : Int) :
    (s.press id).key = s.key ∧ (s.press id).full = s.full := by
  unfold press
  split
  next next hnext => exact toggle_eq_ok hnext
  next => exact ⟨rfl, rfl⟩

theorem after_keeps (s : Session) (presses : List Int) :
    (s.after presses).key = s.key ∧ (s.after presses).full = s.full := by
  induction presses generalizing s with
  | nil => exact ⟨rfl, rfl⟩
  | cons id presses ih =>
    obtain ⟨hkey, hfull⟩ := ih (s.press id)
    obtain ⟨hkey', hfull'⟩ := s.press_keeps id
    exact ⟨hkey.trans hkey', hfull.trans hfull'⟩

theorem after_append (s : Session) (presses more : List Int) :
    s.after (presses ++ more) = (s.after presses).after more :=
  List.foldl_append

end Session

/-! ## Where requests lead -/

namespace Request

/-- The identifier of the node to toggle, if the request gives an integer. -/
def nodeId? (r : Request) : Option Int := CallAtlas.nodeId? (r.param? "id")

/-- The file to show, if one is named. -/
def file? (r : Request) : Option String := (r.param? "file").filter (· ≠ "")

/-- The path of a request is a single line that begins with a slash. -/
structure Proper (r : Request) : Prop where
  slash : r.path.toList.head? = some '/'
  line : '\n' ∉ r.path.toList

theorem Proper.exists_path {r : Request} (h : r.Proper) : ∃ path, r.path = "/" ++ path := by
  obtain ⟨path, hpath⟩ := List.head?_eq_some_iff.mp h.slash
  refine ⟨String.ofList path, ?_⟩
  rw [← String.toList_inj, hpath, String.toList_append, String.toList_ofList]
  simp

end Request

namespace Framework

variable {f : Framework} {r : Request}

/-- The toggle of the session under a key that a request asks for. At `/` there is the index and no
session, and the framework's own pages are no sessions either. -/
def toggleOf? (f : Framework) (r : Request) (key : String) : Option Int :=
  if r.method = "GET" ∧ r.path = key ∧ key ≠ "/" ∧ key ∉ f.pages then r.nodeId? else none

/-- A request that leads to the session under a key, with its parameters as they are. -/
def Asks (f : Framework) (r : Request) (key : String) : Prop :=
  ∃ path, key = "/" ++ path ∧ f.route r = .view path (r.param? "id") (r.param? "file")

/-- Every `GET` for the key of a session leads to it, but for the index and the framework's own
pages. -/
theorem Documented.asks (h : f.Documented) (hr : r.Proper) (hget : r.method = "GET")
    (hindex : r.path ≠ "/") (hpages : r.path ∉ f.pages) : f.Asks r r.path := by
  obtain ⟨path, hpath⟩ := hr.exists_path
  refine ⟨path, hpath, h.view hget hpath ?_ hpages hr.line⟩
  rintro rfl
  exact hindex hpath

/-- **Where a request leads**: to the session under its path, or to none at all, and then no toggle
is asked for. -/
theorem Documented.asks_or (h : f.Documented) (hr : r.Proper) :
    (f.Asks r r.path ∧ f.toggleOf? r r.path = r.nodeId?) ∨
      (∀ path id file, f.route r ≠ .view path id file) ∧ ∀ key, f.toggleOf? r key = none := by
  by_cases hview : r.method = "GET" ∧ r.path ≠ "/" ∧ r.path ∉ f.pages
  · obtain ⟨hget, hindex, hpages⟩ := hview
    exact .inl ⟨h.asks hr hget hindex hpages, if_pos ⟨hget, rfl, hindex, hpages⟩⟩
  · refine .inr ⟨fun path id file hroute => hview ⟨(h.of_view hroute hr.line).1, ?_, ?_⟩,
      fun key => if_neg ?_⟩
    · intro hindex
      rw [h.index (h.of_view hroute hr.line).1 hindex] at hroute
      cases hroute
    · intro hpage
      obtain ⟨status, body, hown⟩ := h.page (h.of_view hroute hr.line).1 hpage
      rw [hown] at hroute
      cases hroute
    · rintro ⟨hget, rfl, hasked⟩
      exact hview ⟨hget, hasked⟩

theorem toggleOf?_of_ne {key : String} (hkey : key ≠ r.path) : f.toggleOf? r key = none :=
  if_neg fun h => hkey h.2.1.symm

/-! ### The framework as it is used -/

theorem line?_eq_self {path : String} (h : '\n' ∉ path.toList) : line? path = some path := by
  have hlast : path.toList.getLast? ≠ some '\n' := fun hlast => h (List.mem_of_getLast? hlast)
  have hcontains : path.toList.contains '\n' = false := by simpa using h
  simp only [line?, if_neg hlast, hcontains]
  rw [if_neg Bool.false_ne_true, String.ofList_toList]

theorem documented_standard (pageText : String → String) : (standard pageText).Documented where
  index {r} hget hpath := by
    have hline : line? "/" = some "/" := by decide
    simp only [standard, hpath, hline]
    simp [hget, standardPages]
  page {r} hget hpage := by
    have hlines : ∀ page ∈ standardPages, '\n' ∉ page.toList ∧
        ∃ path, page.toList = '/' :: path := by
      simp [standardPages]
    obtain ⟨hline, path, hpath⟩ := hlines r.path hpage
    refine ⟨200, pageText r.path, ?_⟩
    have hcontains : standardPages.contains r.path = true := List.contains_iff_mem.mpr hpage
    simp only [standard, line?_eq_self hline, hpath, hget, hcontains, if_true]
  view {r path} hget hpath hne hpage hline := by
    have hcontains : standardPages.contains r.path = false :=
      Bool.eq_false_iff.mpr fun h => hpage (List.contains_iff_mem.mp h)
    have hlist : r.path.toList = '/' :: path.toList := by rw [hpath, String.toList_append]; rfl
    have hnil : path.toList ≠ [] := by simpa using hne
    simp only [standard, line?_eq_self hline, hlist, hget, hcontains, if_true, if_neg hnil,
      String.ofList_toList]
    rfl
  of_view {r path id file} hroute hline := by
    simp only [standard, line?_eq_self hline] at hroute
    split at hroute
    next rest hrest =>
      split at hroute
      next hget =>
        refine ⟨hget, ?_⟩
        split at hroute
        · cases hroute
        · split at hroute
          · cases hroute
          · cases hroute
            rw [← String.toList_inj, hrest, String.toList_append, String.toList_ofList]
            simp
      · split at hroute
        · cases hroute
        · split at hroute <;> cases hroute
    · cases hroute

end Framework

namespace Server

variable {server : Server}

/-! ## One request -/

/-- What a request for a session leaves behind: the same server, if nothing is toggled, or one with
the session after the toggle. -/
theorem showSession_cases (server : Server) (fs : FileSystem) (s : Session)
    (id file : Option String) :
    ((server.showSession fs s id file).2 = server ∧ s.after (nodeId? id).toList = s) ∨
      ∃ n next, nodeId? id = some n ∧ s.toggle n = .ok next ∧
        (server.showSession fs s id file).2 =
          { server with sessions := server.sessions.put next.key next } := by
  unfold showSession
  cases hid : nodeId? id with
  | none =>
    refine .inl ⟨?_, rfl⟩
    cases file.filter (· ≠ "") with
    | none => rfl
    | some file => rfl
  | some n =>
    have hpress : s.after (some n).toList = s.press n := rfl
    cases htoggle : s.toggle n with
    | error e =>
      refine .inl ⟨?_, ?_⟩
      · simp only [htoggle]
      · rw [hpress, Session.press, htoggle]
    | ok next =>
      refine .inr ⟨n, next, rfl, htoggle, ?_⟩
      simp only [htoggle]

/-- Whatever the framework makes of a request, it changes nothing or toggles one of the sessions. -/
theorem respond_toggles (server : Server) (fs : FileSystem) (request : Request) :
    (server.respond fs request).2 = server ∨
      ∃ key s id next, server.sessions.get? key = some s ∧ s.toggle id = .ok next ∧
        (server.respond fs request).2 =
          { server with sessions := server.sessions.put next.key next } := by
  unfold respond
  split
  · exact .inl rfl
  next path id file _ =>
    unfold view
    split
    next s hs =>
      rcases showSession_cases server fs s id file with ⟨hserver, -⟩ | ⟨n, next, -, hnext, hserver⟩
      · exact .inl hserver
      · exact .inr ⟨_, s, n, next, hs, hnext, hserver⟩
    · exact .inl rfl
  · exact .inl rfl
  · exact .inl rfl

/-- A request changes nothing but sessions. -/
theorem respond_frame (server : Server) (fs : FileSystem) (request : Request) :
    (server.respond fs request).2.framework = server.framework ∧
      (server.respond fs request).2.config = server.config := by
  rcases respond_toggles server fs request with hserver | ⟨key, s, id, next, -, -, hserver⟩
  · rw [hserver]
    exact ⟨rfl, rfl⟩
  · rw [hserver]
    exact ⟨rfl, rfl⟩

/-- A request that leads to a session shows it. -/
theorem respond_of_asks {request : Request} {key : String}
    (h : server.framework.Asks request key) {s : Session}
    (hs : server.sessions.get? key = some s) (fs : FileSystem) :
    server.respond fs request =
      server.showSession fs s (request.param? "id") (request.param? "file") := by
  obtain ⟨path, rfl, hroute⟩ := h
  rw [respond, hroute]
  simp only [view, hs]

theorem respond_of_none {request : Request} {key : String} (h : server.framework.Asks request key)
    (hs : server.sessions.get? key = none) (fs : FileSystem) :
    server.respond fs request = (.ok .toIndex, server) := by
  obtain ⟨path, rfl, hroute⟩ := h
  rw [respond, hroute]
  simp only [view, hs]

/-- A request that leads to no session changes none. -/
theorem respond_of_no_view {request : Request} (fs : FileSystem)
    (h : ∀ path id file, server.framework.route request ≠ .view path id file) :
    (server.respond fs request).2 = server := by
  unfold respond
  split
  · rfl
  next path id file hroute => exact absurd hroute (h path id file)
  · rfl
  · rfl

/-- **What a request leaves behind.** Either nothing changes, and then no session would notice the
toggles that are asked of it; or it is a request for the session under its path, and this session is
toggled. -/
theorem respond_cases (hdocumented : server.framework.Documented) (fs : FileSystem)
    {request : Request} (hproper : request.Proper) :
    ((server.respond fs request).2 = server ∧ ∀ key s, server.sessions.get? key = some s →
        s.after (server.framework.toggleOf? request key).toList = s) ∨
      ∃ s id next, server.sessions.get? request.path = some s ∧
        server.framework.toggleOf? request request.path = some id ∧ s.toggle id = .ok next ∧
        (server.respond fs request).2 =
          { server with sessions := server.sessions.put next.key next } := by
  rcases hdocumented.asks_or hproper with ⟨hasks, hasked⟩ | ⟨hnone, hunasked⟩
  · cases hs : server.sessions.get? request.path with
    | none =>
      refine .inl ⟨by rw [respond_of_none hasks hs], fun key found hfound => ?_⟩
      rw [Framework.toggleOf?_of_ne]
      · rfl
      · rintro rfl
        cases hs.symm.trans hfound
    | some s =>
      rw [respond_of_asks hasks hs]
      rcases showSession_cases server fs s _ _ with ⟨hserver, hsame⟩ |
        ⟨id, next, hid, hnext, hserver⟩
      · refine .inl ⟨hserver, fun key found hfound => ?_⟩
        by_cases hkey : key = request.path
        · subst hkey
          cases hs.symm.trans hfound
          rw [hasked]
          exact hsame
        · rw [Framework.toggleOf?_of_ne hkey]
          rfl
      · exact .inr ⟨s, id, next, rfl, hasked.trans hid, hnext, hserver⟩
  · refine .inl ⟨respond_of_no_view fs hnone, fun key s _ => ?_⟩
    rw [hunasked key]
    rfl

/-- **What a request does to a session**: it toggles the node that it asks for, if it asks for
one. -/
theorem get?_respond (hdocumented : server.framework.Documented) (hkeyed : server.sessions.Keyed)
    (fs : FileSystem) {request : Request} (hproper : request.Proper) (key : String) :
    (server.respond fs request).2.sessions.get? key =
      (server.sessions.get? key).map (·.after (server.framework.toggleOf? request key).toList) := by
  rcases respond_cases hdocumented fs hproper with ⟨hserver, hsame⟩ |
    ⟨s, id, next, hs, hid, hnext, hserver⟩
  · rw [hserver]
    cases hfound : server.sessions.get? key with
    | none => rfl
    | some s => rw [Option.map_some, hsame key s hfound]
  · rw [hserver]
    simp only
    rw [Table.get?_put, (Session.toggle_eq_ok hnext).1, hkeyed _ s hs]
    split
    next hkey =>
      rw [hkey, hs, hid, Option.map_some]
      have hpress : s.after (some id).toList = s.press id := rfl
      rw [hpress, Session.press, hnext]
    next hkey =>
      rw [Framework.toggleOf?_of_ne hkey]
      exact Option.map_id'.symm

/-- Whatever is requested, every session stands under its own key. -/
theorem keyed_respond (h : server.sessions.Keyed) (fs : FileSystem) (request : Request) :
    (server.respond fs request).2.sessions.Keyed := by
  rcases respond_toggles server fs request with hserver | ⟨key, s, id, next, -, -, hserver⟩
  · rw [hserver]
    exact h
  · rw [hserver]
    exact h.put next

/-- A request does not change the keys of sessions. -/
theorem keys_respond (hkeyed : server.sessions.Keyed) (fs : FileSystem) (request : Request) :
    (server.respond fs request).2.sessions.keys = server.sessions.keys := by
  rcases respond_toggles server fs request with hserver | ⟨key, s, id, next, hs, hnext, hserver⟩
  · rw [hserver]
  · have hmem : next.key ∈ server.sessions.keys := by
      rw [(Session.toggle_eq_ok hnext).1, hkeyed _ s hs]
      exact Table.mem_keys_iff.mpr ⟨s, Table.get?_eq_some_iff.mp hs⟩
    rw [hserver]
    simp only
    rw [Table.keys_put, if_pos hmem]

/-! ## Histories -/

/-- The server after a history of requests, each with the file system at its time. -/
def after (server : Server) (history : List (FileSystem × Request)) : Server :=
  history.foldl (fun server (fs, request) => (server.respond fs request).2) server

/-- What a history leaves of all but the sessions: everything. -/
theorem after_frame (server : Server) (history : List (FileSystem × Request)) :
    (server.after history).framework = server.framework ∧
      (server.after history).config = server.config := by
  induction history generalizing server with
  | nil => exact ⟨rfl, rfl⟩
  | cons first rest ih =>
    obtain ⟨hframework, hconfig⟩ := server.respond_frame first.1 first.2
    obtain ⟨hframework', hconfig'⟩ := ih (server.respond first.1 first.2).2
    exact ⟨hframework'.trans hframework, hconfig'.trans hconfig⟩

theorem keyed_after (h : server.sessions.Keyed) (history : List (FileSystem × Request)) :
    (server.after history).sessions.Keyed := by
  induction history generalizing server with
  | nil => exact h
  | cons first rest ih => exact ih (keyed_respond h first.1 first.2)

theorem keys_after (hkeyed : server.sessions.Keyed) (history : List (FileSystem × Request)) :
    (server.after history).sessions.keys = server.sessions.keys := by
  induction history generalizing server with
  | nil => rfl
  | cons first rest ih =>
    exact (ih (keyed_respond hkeyed first.1 first.2)).trans (keys_respond hkeyed first.1 first.2)

/-- **What a history does to a session**: the toggles that are asked of it, in their order. -/
theorem get?_after (hdocumented : server.framework.Documented) (hkeyed : server.sessions.Keyed)
    {history : List (FileSystem × Request)} (hproper : ∀ e ∈ history, e.2.Proper) (key : String) :
    (server.after history).sessions.get? key = (server.sessions.get? key).map
      (·.after (history.filterMap fun e => server.framework.toggleOf? e.2 key)) := by
  induction history generalizing server with
  | nil => exact Option.map_id'.symm
  | cons first rest ih =>
    obtain ⟨hfirst, hproper⟩ := List.forall_mem_cons.mp hproper
    have hframework := (server.respond_frame first.1 first.2).1
    have hrest := ih (hframework ▸ hdocumented) (keyed_respond hkeyed first.1 first.2) hproper
    rw [hframework] at hrest
    have hsplit : (first :: rest).filterMap (fun e => server.framework.toggleOf? e.2 key) =
        (server.framework.toggleOf? first.2 key).toList ++
          rest.filterMap fun e => server.framework.toggleOf? e.2 key := by
      rw [List.filterMap_cons]
      cases server.framework.toggleOf? first.2 key with
      | none => rfl
      | some id => rfl
    rw [hsplit]
    refine hrest.trans ?_
    rw [get?_respond hdocumented hkeyed first.1 hfirst, Option.map_map]
    congr 1
    funext s
    exact (s.after_append _ _).symm

/-- A plain request is answered from the keys, the trees and how they are drawn. -/
theorem respond_plain_congr {server' : Server} (hdocumented : server.framework.Documented)
    (hframework : server'.framework = server.framework) (hconfig : server'.config = server.config)
    (hkeys : server'.sessions.keys = server.sessions.keys)
    (hsessions : ∀ key, (server'.sessions.get? key).map (fun s => (s.key, s.full)) =
      (server.sessions.get? key).map fun s => (s.key, s.full))
    (fs : FileSystem) {request : Request} (hproper : request.Proper) (hid : request.nodeId? = none)
    (hfile : request.file? = none) :
      (server'.respond fs request).1 = (server.respond fs request).1 := by
  rcases hdocumented.asks_or hproper with ⟨hasks, -⟩ | ⟨hnone, -⟩
  · have hasks' : server'.framework.Asks request request.path := hframework ▸ hasks
    have hpath := hsessions request.path
    cases hs' : server'.sessions.get? request.path with
    | none =>
      rw [hs', Option.map_none, eq_comm, Option.map_eq_none_iff] at hpath
      rw [respond_of_none hasks hpath, respond_of_none hasks' hs']
    | some s' =>
      rw [hs', Option.map_some, eq_comm, Option.map_eq_some_iff] at hpath
      obtain ⟨s, hs, heq⟩ := hpath
      obtain ⟨hkey, hfull⟩ := Prod.mk.inj heq
      rw [Request.nodeId?] at hid
      rw [Request.file?] at hfile
      rw [respond_of_asks hasks hs, respond_of_asks hasks' hs']
      simp only [showSession, hid, hfile, sessionPage, Session.views, hconfig, hkey, hfull, if_true]
  · unfold respond
    rw [hframework]
    split
    · rw [hkeys]
    next path id file hroute => exact absurd hroute (hnone path id file)
    · rfl
    · rfl

/-- **Sessions are independent.** Let every session stand under its own key, on any framework that
is as documented. After any history of requests, the state of the session under a key is the one
after those toggles, in their order, that were asked for by a `GET` for this key with an integer as
`id`; toggles that fail are skipped. At `/` no toggle is asked for, because the index is served
there, and none on the framework's own pages. A `GET` without an integer `id` and without a `file`
is answered after the history as it was before. -/
theorem sessions_independent (hdocumented : server.framework.Documented)
    (hkeyed : server.sessions.Keyed)
    {history : List (FileSystem × Request)} (hproper : ∀ e ∈ history, e.2.Proper) :
    (∀ key, (server.after history).sessions.get? key = (server.sessions.get? key).map
      (·.after (history.filterMap fun e => server.framework.toggleOf? e.2 key))) ∧
    ∀ fs request, request.Proper → request.nodeId? = none → request.file? = none →
      ((server.after history).respond fs request).1 = (server.respond fs request).1 := by
  refine ⟨get?_after hdocumented hkeyed hproper, ?_⟩
  intro fs request hrequest hid hfile
  obtain ⟨hframework, hconfig⟩ := server.after_frame history
  refine respond_plain_congr hdocumented hframework hconfig (keys_after hkeyed history)
    (fun key => ?_) fs hrequest hid
    hfile
  rw [get?_after hdocumented hkeyed hproper, Option.map_map]
  congr 1
  funext s
  exact Prod.ext (s.after_keeps _).1 (s.after_keeps _).2

/-- Two sessions of one tree. -/
def twoSessions : Server where
  framework := .standard id
  sessions := ((Sessions.add .empty "/k" Session.partlyBuilt).1.add "/l" Session.partlyBuilt).1
  config := {}

/-- Requests of all kinds: toggles of both sessions, one of a node that is not shown, and requests
that toggle nothing. -/
def mixedHistory : List (FileSystem × Request) :=
  [({}, { path := "/k", params := [("id", "1")] }), ({}, { path := "/l", params := [("id", "0")] }),
    ({}, { path := "/k", method := "POST", params := [("id", "0")] }),
    ({}, { path := "/k", params := [("id", "2")] }),
    ({}, { path := "/k", params := [("id", "x"), ("file", "/a.py")] }),
    ({}, { path := "/m", params := [("id", "1")] }),
    ({}, { path := "/docs", params := [("id", "1")] }),
    ({}, { path := "/k", params := [("id", "7"), ("id", " +1 ")] })]

/-- The third toggle of the session under `/k` opens what the first has closed; the second fails in
between. -/
theorem sessions_independent_mixed :
    twoSessions.framework.Documented ∧ twoSessions.sessions.Keyed ∧
      (∀ e ∈ mixedHistory, e.2.Proper) ∧
      (twoSessions.after mixedHistory).sessions.get? "/k" =
        some (({ key := "/k", full := Session.partlyBuilt } : Session).after [1, 2, 1]) ∧
      (twoSessions.after mixedHistory).sessions.get? "/l" =
        some (({ key := "/l", full := Session.partlyBuilt } : Session).after [0]) ∧
      ((twoSessions.after mixedHistory).respond {} { path := "/k" }).1 =
        (twoSessions.respond {} { path := "/k" }).1 := by
  have hdocumented : twoSessions.framework.Documented := Framework.documented_standard id
  have hkeyed : twoSessions.sessions.Keyed := (Sessions.keyed_empty.add _ _).add _ _
  have hproper : ∀ e ∈ mixedHistory, e.2.Proper := by
    have hlines : ∀ e ∈ mixedHistory, e.2.path.toList.head? = some '/' ∧
        '\n' ∉ e.2.path.toList := by decide +kernel
    exact fun e he => ⟨(hlines e he).1, (hlines e he).2⟩
  have hk : mixedHistory.filterMap (fun e => twoSessions.framework.toggleOf? e.2 "/k") =
      [1, 2, 1] := by decide +kernel
  have hl : mixedHistory.filterMap (fun e => twoSessions.framework.toggleOf? e.2 "/l") = [0] := by
    decide +kernel
  obtain ⟨hsessions, hplain⟩ := sessions_independent hdocumented hkeyed hproper
  refine ⟨hdocumented, hkeyed, hproper, ?_, ?_, hplain _ _ ⟨by decide, by decide⟩ rfl rfl⟩
  · rw [hsessions, hk]
    rfl
  · rw [hsessions, hl]
    rfl

/-- A server with a session under the key of the index. -/
def withIndexKey (framework : Framework) : Server where
  framework
  sessions := (Sessions.add .empty "/" Session.partlyBuilt).1
  config := {}

/-- **Keys are not simply compared with paths.** On every framework that is as documented, a `GET`
for `/` changes no session, although there is one under this key, in which the node that the request
asks for would be closed. -/
theorem sessions_not_by_path :
    (Framework.standard id).Documented ∧ ∀ framework : Framework, framework.Documented →
      (withIndexKey framework).sessions.Keyed ∧
        ((withIndexKey framework).after
          [({}, { path := "/", params := [("id", "1")] })]).sessions.get? "/" ≠
            ((withIndexKey framework).sessions.get? "/").map (·.after [1]) := by
  have hclosed :
      (({ key := "/", full := Session.partlyBuilt } : Session).after [1]).current.walk.map Tree.id =
        [0, 1] := by cbv
  have hopen : ({ key := "/", full := Session.partlyBuilt } : Session).current.walk.map Tree.id =
      [0, 1, 2, 3] := by cbv
  refine ⟨Framework.documented_standard id, fun framework h => ?_⟩
  have hkeyed : (withIndexKey framework).sessions.Keyed := Sessions.keyed_empty.add _ _
  have hproper : ({ path := "/", params := [("id", "1")] } : Request).Proper :=
    ⟨by decide, by decide⟩
  refine ⟨hkeyed, fun heq => ?_⟩
  have hkept := get?_respond h hkeyed {} hproper "/"
  rw [Framework.toggleOf?, if_neg fun h => h.2.2.1 rfl] at hkept
  have hids :=
    congrArg (fun s : Session => s.current.walk.map Tree.id)
      (Option.some.inj (heq.symm.trans hkept))
  exact absurd (hclosed.symm.trans (hids.trans hopen)) (by decide)

end Server

end CallAtlas
