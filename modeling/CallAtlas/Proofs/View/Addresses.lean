import CallAtlas.Proofs.Text.Decoding
import CallAtlas.Proofs.View.PlainPages
import CallAtlas.Proofs.View.Scripts

/-!
# Where links lead

A key may hold anything: spaces, quotes, percent signs, and what divides the parts of an address. It
stands in the links of the index and of a session's graph, encoded for addresses, and once more for
the text around it. Each of these encodings is undone by a reader that knows nothing of keys:
`Text.htmlUnescaped` for the index, `Dot.unescapeLabel` for the text of a graph, and
`Request.ofAddress?` for an address, which is divided first and decoded then.

The links of the index are read off its HTML (`Page.hrefs`), those of a graph off its DOT text
(`Dot.links`). All of them lead back to the session whose key they were made from
(`Server.links_lead_back`).
-/

namespace CallAtlas

open Text

/-! ## Reading an address -/

/-- What stands before the first occurrence of a character, and what stands behind it. -/
def Text.cutAt (c : Char) (text : List Char) : List Char × List Char :=
  (text.takeWhile (· ≠ c), (text.dropWhile (· ≠ c)).drop 1)

theorem Text.cutAt_append {c : Char} {before : List Char} (h : c ∉ before) (after : List Char) :
    cutAt c (before ++ c :: after) = (before, after) := by
  have hall : ∀ d ∈ before, decide (d ≠ c) = true :=
    fun d hd => decide_eq_true fun heq => h (heq ▸ hd)
  rw [cutAt, List.takeWhile_append_of_pos hall, List.dropWhile_append_of_pos hall]
  simp

theorem Text.cutAt_of_not_mem {c : Char} {text : List Char} (h : c ∉ text) :
    cutAt c text = (text, []) := by
  have hall : ∀ d ∈ text, decide (d ≠ c) = true :=
    fun d hd => decide_eq_true fun heq => h (heq ▸ hd)
  rw [cutAt, List.takeWhile_eq_self_iff.mpr hall, List.dropWhile_eq_nil_iff.mpr hall, List.drop_nil]

namespace Request

/-- A field of a query: a name and a value, in which a plus sign stands for a space. -/
def field? (text : List Char) : Option (String × String) :=
  let parts := cutAt '=' (text.map fun c => if c = '+' then ' ' else c)
  (percentDecoded? parts.1).bind fun name =>
  (percentDecoded? parts.2).map fun value => (name, value)

/-- The parameters in a query. -/
def params? (query : List Char) : Option (List (String × String)) :=
  ((query.splitOn '&').filter (· ≠ [])).mapM field?

/-- The request that follows an address on the same server. What stands behind a number sign is not
sent, and what stands behind a question mark is the query. -/
def ofAddress? (address : String) : Option Request :=
  let parts := cutAt '?' (cutAt '#' address.toList).1
  if parts.1.head? = some '/' then
    (percentDecoded? parts.1).bind fun path => (params? parts.2).map fun params => { path, params }
  else none

/-- A field with an encoded name and value, as it stands in a query. -/
def fieldText (name value : String) : List Char :=
  (percentEncoded name).toList ++ '=' :: (percentEncoded value).toList

/-- A field behind an address, where its name need not be encoded. -/
theorem append_fieldText {name : String} (h : percentEncoded name = name) (address value : String) :
    address ++ ("?" ++ name ++ "=") ++ percentEncoded value =
      address ++ "?" ++ String.ofList (fieldText name value) := by
  rw [← String.toList_inj, fieldText, h]
  simp

/-- What neither an encoded text nor the equals sign is, no field holds. -/
theorem not_mem_fieldText {c : Char} (h : isLinkChar c = false) (hne : c ≠ '=')
    (name value : String) :
    c ∉ fieldText name value := by
  rw [fieldText, List.mem_append, List.mem_cons, not_or, not_or]
  exact ⟨not_mem_percentEncoded h name, hne, not_mem_percentEncoded h value⟩

theorem field?_fieldText (name value : String) :
    field? (fieldText name value) = some (name, value) := by
  have hspaced : (fieldText name value).map (fun c => if c = '+' then ' ' else c) =
      fieldText name value := by
    have hplus : ∀ c ∈ fieldText name value, (if c = '+' then ' ' else c) = c := by
      intro c hc
      rw [if_neg]
      rintro rfl
      exact not_mem_fieldText (by decide) (by decide) name value hc
    rw [List.map_congr_left hplus, List.map_id']
  have hcut := cutAt_append (not_mem_percentEncoded (show isLinkChar '=' = false by decide) name)
    (percentEncoded value).toList
  rw [field?, hspaced, fieldText, hcut]
  simp only [percentDecoded?_percentEncoded, Option.bind_some, Option.map_some]

theorem params?_fieldText (name value : String) :
    params? (fieldText name value) = some [(name, value)] := by
  have hone : (fieldText name value).splitOn '&' = [fieldText name value] :=
    List.splitOn_eq_singleton (not_mem_fieldText (by decide) (by decide) name value)
  have hne : fieldText name value ≠ [] :=
    List.append_ne_nil_of_right_ne_nil _ (List.cons_ne_nil _ _)
  rw [params?, hone]
  simp [hne, field?_fieldText]

/-- The encoded form of a key that begins with a slash does so too. -/
theorem head?_percentEncoded {key : String} (h : key.toList.head? = some '/') :
    (percentEncoded key).toList.head? = some '/' := by
  obtain ⟨rest, hrest⟩ := List.head?_eq_some_iff.mp h
  rw [percentEncoded, String.toList_ofList, hrest, List.flatMap_cons]
  rfl

/-- **An encoded key is the address of its path.** -/
theorem ofAddress?_percentEncoded {key : String} (h : key.toList.head? = some '/') :
    ofAddress? (percentEncoded key) = some { path := key } := by
  have hsharp :=
    cutAt_of_not_mem (not_mem_percentEncoded (show isLinkChar '#' = false by decide) key)
  have hquery :=
    cutAt_of_not_mem (not_mem_percentEncoded (show isLinkChar '?' = false by decide) key)
  have hnone : params? [] = some [] := by simp [params?]
  rw [ofAddress?, hsharp, hquery]
  simp only [head?_percentEncoded h, if_true, percentDecoded?_percentEncoded, hnone,
    Option.bind_some, Option.map_some]

/-- **With a field behind it**, it is the address of that path with a parameter. -/
theorem ofAddress?_fieldText {key : String} (h : key.toList.head? = some '/')
    (name value : String) :
    ofAddress? (percentEncoded key ++ "?" ++ String.ofList (fieldText name value)) =
      some { path := key, params := [(name, value)] } := by
  have htext : (percentEncoded key ++ "?" ++ String.ofList (fieldText name value)).toList =
      (percentEncoded key).toList ++ '?' :: fieldText name value := by simp
  have hsharp : '#' ∉ (percentEncoded key).toList ++ '?' :: fieldText name value := by
    rw [List.mem_append, List.mem_cons, not_or, not_or]
    exact ⟨not_mem_percentEncoded (by decide)
      key, by decide, not_mem_fieldText (by decide) (by decide) name value⟩
  have hquery := cutAt_append (not_mem_percentEncoded (show isLinkChar '?' = false by decide) key)
    (fieldText name value)
  rw [ofAddress?, htext, cutAt_of_not_mem hsharp, hquery]
  simp only [head?_percentEncoded h, if_true, percentDecoded?_percentEncoded, params?_fieldText,
    Option.bind_some, Option.map_some]

end Request

/-! ## The links of the index -/

namespace Page

/-- The links in HTML, as they are written between the quotes. -/
def hrefsFrom : List Char → List String
  | [] => []
  | c :: rest =>
    if "<a href=\"".toList <+: c :: rest then
      String.ofList (cutAt '"' ((c :: rest).drop 9)).1 :: hrefsFrom rest
    else hrefsFrom rest

/-- The links in an HTML text, as they are written between the quotes. -/
def hrefs (html : String) : List String := hrefsFrom html.toList

/-- Whether it can be told of a text that no link starts in it, whatever stands behind it. -/
def startsNoLink : List Char → Bool
  | [] => true
  | c :: rest => (c ≠ '<' || (rest.head?.any (· ≠ 'a'))) && startsNoLink rest

theorem hrefsFrom_append {literal : List Char} (h : startsNoLink literal = true)
    (rest : List Char) :
    hrefsFrom (literal ++ rest) = hrefsFrom rest := by
  induction literal with
  | nil => rfl
  | cons c literal ih =>
    rw [startsNoLink, Bool.and_eq_true] at h
    have hnot : ¬"<a href=\"".toList <+: c :: (literal ++ rest) := by
      rintro ⟨more, hmore⟩
      obtain ⟨rfl, htail⟩ := List.cons.inj hmore
      cases literal with
      | nil => cases h.1
      | cons d literal =>
        obtain ⟨rfl, -⟩ := List.cons.inj htail
        cases h.1
    rw [List.cons_append, hrefsFrom, if_neg hnot, ih h.2]

theorem startsNoLink_of_not_mem {text : List Char} (h : '<' ∉ text) : startsNoLink text = true := by
  induction text with
  | nil => rfl
  | cons c text ih =>
    rw [List.mem_cons, not_or] at h
    rw [startsNoLink, ih h.2, decide_eq_true (Ne.symm h.1)]
    rfl

/-- A link is read up to its closing quote. -/
theorem hrefsFrom_link {value : List Char} (hquote : '"' ∉ value) (htag : '<' ∉ value)
    (rest : List Char) :
    hrefsFrom ("<a href=\"".toList ++ (value ++ '"' :: rest)) =
      String.ofList value :: hrefsFrom rest := by
  have hstart (more : List Char) : hrefsFrom ("<a href=\"".toList ++ more) =
      String.ofList (cutAt '"' more).1 :: hrefsFrom ("a href=\"".toList ++ more) := by
    have hlink : "<a href=\"".toList <+: '<' :: ("a href=\"".toList ++ more) := ⟨more, rfl⟩
    have hopen : "<a href=\"".toList ++ more = '<' :: ("a href=\"".toList ++ more) := rfl
    rw [hopen, hrefsFrom, if_pos hlink]
    rfl
  have hinside : startsNoLink ("a href=\"".toList ++ (value ++ ['"'])) = true := by
    refine startsNoLink_of_not_mem ?_
    rw [List.mem_append, List.mem_append, not_or, not_or]
    exact ⟨by decide, htag, by decide⟩
  have hbehind : "a href=\"".toList ++ (value ++ '"' :: rest) =
      "a href=\"".toList ++ (value ++ ['"']) ++ rest := by
    simp only [List.append_assoc, List.singleton_append]
  rw [hstart, cutAt_append hquote, hbehind, hrefsFrom_append hinside]

/-- **A line of the index has one link.** -/
theorem hrefsFrom_indexLine (key : String) (rest : List Char) :
    hrefsFrom ((indexLine key).toList ++ rest) =
      htmlEscaped (percentEncoded key) :: hrefsFrom rest := by
  have htext : (indexLine key).toList ++ rest = "    <li>".toList ++ ("<a href=\"".toList ++
      ((htmlEscaped (percentEncoded key)).toList ++ '"' :: (('>' :: (htmlEscaped key).toList) ++
      ("</a></li>".toList ++ rest)))) := by
    have hopen : "    <li><a href=\"".toList = "    <li>".toList ++ "<a href=\"".toList := by decide
    have hclose : "\">".toList = ['"', '>'] := by decide
    unfold indexLine
    simp only [String.toList_append, hopen, hclose, List.append_assoc, List.cons_append,
      List.nil_append]
  have hquote : '"' ∉ (htmlEscaped (percentEncoded key)).toList := not_mem_htmlEscaped (.inr rfl) _
  have htag (text : String) : '<' ∉ (htmlEscaped text).toList := not_mem_htmlEscaped (.inl rfl) _
  have hshown : startsNoLink ('>' :: (htmlEscaped key).toList) = true :=
    startsNoLink_of_not_mem (List.not_mem_cons_of_ne_of_not_mem (by decide) (htag key))
  have hitem : startsNoLink "    <li>".toList = true := by decide
  have hend : startsNoLink "</a></li>".toList = true := by decide
  rw [htext, hrefsFrom_append hitem, hrefsFrom_link hquote (htag _), hrefsFrom_append hshown,
    hrefsFrom_append hend, String.ofList_toList]

/-- The lines before the links of the index. -/
def indexHead : List String :=
  [ "<!DOCTYPE html>",
    "<html lang=\"en\">",
    "<head>",
    "  <meta charset=\"UTF-8\">",
    "  <meta name=\"viewport\" content=\"width=device-width, initial-scale=1.0\">",
    "  <meta name=\"color-scheme\" content=\"light dark\">",
    "  <title>Call Sites</title>",
    "  <style>a \x7b font-size: 1.5rem; \x7d</style>",
    "</head>",
    "<body>",
    "  <ul>" ]

/-- The lines behind the links of the index. -/
def indexTail : List String := ["  </ul>", "</body>", "</html>"]

theorem toList_index (keys : List String) : (index keys).toList =
    (indexHead.flatMap fun line => line.toList ++ ['\n']) ++
      (("\n".intercalate (keys.map indexLine)).toList ++
      ('\n' :: indexTail.flatMap fun line => line.toList ++ ['\n'])) := by
  have hlines :
      index keys = ofLines (indexHead ++ ["\n".intercalate (keys.map indexLine)] ++ indexTail) :=
    rfl
  rw [hlines, toList_ofLines, List.flatMap_append, List.flatMap_append, List.flatMap_singleton,
    List.append_assoc, List.append_assoc, List.singleton_append]

/-- **The links of the index** are those of its keys, in their order. -/
theorem hrefs_index (keys : List String) :
    hrefs (index keys) = keys.map fun key => htmlEscaped (percentEncoded key) := by
  have hhead : startsNoLink (indexHead.flatMap fun line => line.toList ++ ['\n']) = true := by
    decide +kernel
  have htail : hrefsFrom ('\n' :: indexTail.flatMap fun line => line.toList ++ ['\n']) = [] := by
    decide +kernel
  have hnext (keys : List String) (rest : List Char) :
      hrefsFrom ((keys.flatMap fun key => "\n".toList ++ (indexLine key).toList) ++ rest) =
        (keys.map fun key => htmlEscaped (percentEncoded key)) ++ hrefsFrom rest := by
    have hbreak : startsNoLink "\n".toList = true := by decide
    induction keys with
    | nil => rfl
    | cons key keys ih =>
      rw [List.flatMap_cons, List.append_assoc, List.append_assoc, hrefsFrom_append hbreak,
        hrefsFrom_indexLine, ih, List.map_cons, List.cons_append]
  rw [hrefs, toList_index, hrefsFrom_append hhead]
  cases keys with
  | nil => exact htail
  | cons key keys =>
    rw [List.map_cons, toList_intercalate_cons, List.flatMap_map, List.append_assoc,
      hrefsFrom_indexLine, hnext, htail, List.append_nil, List.map_cons]

end Page

/-! ## The links of a graph -/

namespace Dot

/-- Reads what stands between the quotes of a label. -/
def readLabel : List Char → List Char
  | '\\' :: 'l' :: rest => '\n' :: readLabel rest
  | '\\' :: c :: rest => c :: readLabel rest
  | c :: rest => c :: readLabel rest
  | [] => []

/-- The text of a label, from what stands between its quotes. -/
def unescapeLabel (text : String) : String := String.ofList (readLabel text.toList)

theorem readLabel_labelChar (c : Char) (rest : List Char) :
    readLabel (labelChar c ++ rest) = c :: readLabel rest := by
  unfold labelChar
  split
  · rfl
  next hbreak =>
    unfold idChar
    split
    · rfl
    · rfl
    next hslash hquote =>
      rw [List.singleton_append, readLabel]
      · exact fun _ heq => absurd heq hslash
      · exact fun _ _ heq => absurd heq hslash

/-- **A text is read back from its label.** -/
theorem unescapeLabel_escapeLabel (text : String) : unescapeLabel (escapeLabel text) = text := by
  have hread (chars : List Char) : readLabel (chars.flatMap labelChar) = chars := by
    induction chars with
    | nil => rfl
    | cons c chars ih => rw [List.flatMap_cons, readLabel_labelChar, ih]
  rw [unescapeLabel, escapeLabel, String.toList_ofList, hread, String.ofList_toList]

end Dot

open Dot

/-- The parameters of the links of a cluster: its own asks for its file, those of its nodes ask to
toggle them. -/
def Cluster.linkParams (cluster : Cluster) : List (List (String × String)) :=
  [("file", cluster.file.text)] ::
    (cluster.nodes.filter fun node => node.state = .expandable ∨
      node.state = .expanded).map fun node =>
      [("id", toString node.treeId)]

/-- A number is its own encoded form. -/
theorem Text.percentEncoded_toString (n : Int) : percentEncoded (toString n) = toString n := by
  have hplain : ∀ c ∈ (toString n).toList, percentChar c = [c] := by
    intro c hc
    have hlink : isPlainInLink c = true := by
      rcases mem_toString_int hc with rfl | hdigit
      · decide
      · rw [isPlainInLink, Char.isAlphanum, hdigit]
        simp
    rw [percentChar, if_pos hlink]
  rw [percentEncoded, List.flatMap_congr hplain, List.flatMap_singleton', String.ofList_toList]

namespace Session

/-- What a session draws: what is shown, or the whole tree. -/
def drawn (s : Session) (whole : Bool) : Tree := if whole then s.full else s.current

/-- The text for the browser on any page. -/
theorem browser_views_drawn (s : Session) (config : GraphConfig) (whole : Bool) :
    (s.views config whole).browser =
      (config.graphOf (s.drawn whole)).dot
      { interactive := true, baseUrl := percentEncoded s.key } := by
  simp [views, drawn, Tree.drawing]

/-- The link of a cluster asks its session for the file. -/
theorem ofAddress?_clusterLink {s : Session} (h : s.key.toList.head? = some '/')
    (cluster : Cluster) :
    Request.ofAddress? (unescapeLabel (escapeLabel (DotConfig.clusterLink
      { interactive := true, baseUrl := percentEncoded s.key } cluster))) =
        some { path := s.key, params := [("file", cluster.file.text)] } := by
  have hname : percentEncoded "file" = "file" := by decide
  have hlink := Request.append_fieldText hname (percentEncoded s.key) cluster.file.text
  rw [unescapeLabel_escapeLabel, DotConfig.clusterLink, if_pos rfl]
  exact (congrArg Request.ofAddress? hlink).trans (Request.ofAddress?_fieldText h _ _)

/-- The link of a node asks its session to toggle the node. -/
theorem ofAddress?_nodeLink {s : Session} (h : s.key.toList.head? = some '/') (treeId : Int) :
    Request.ofAddress?
      (unescapeLabel (escapeLabel (percentEncoded s.key) ++ "?id=" ++ toString treeId)) =
        some { path := s.key, params := [("id", toString treeId)] } := by
  have hname : percentEncoded "id" = "id" := by decide
  have hlink := Request.append_fieldText hname (percentEncoded s.key) (toString treeId)
  rw [percentEncoded_toString] at hlink
  rw [← DotConfig.escapeLabel_link, unescapeLabel_escapeLabel]
  exact (congrArg Request.ofAddress? hlink).trans (Request.ofAddress?_fieldText h _ _)

theorem ofAddress?_nodeLinks {s : Session} (h : s.key.toList.head? = some '/')
    (nodes : List GraphNode) :
    (nodes.flatMap
      (DotConfig.nodeLinks { interactive := true, baseUrl := percentEncoded s.key })).map
      (fun link => Request.ofAddress? (unescapeLabel link)) =
        (nodes.filter fun node => node.state = .expandable ∨ node.state = .expanded).map fun node =>
          some { path := s.key, params := [("id", toString node.treeId)] } := by
  induction nodes with
  | nil => rfl
  | cons node nodes ih =>
    rw [List.flatMap_cons, List.map_append, ih, DotConfig.nodeLinks]
    by_cases hlinked : node.state = .expandable ∨ node.state = .expanded
    · rw [if_pos ⟨rfl, hlinked⟩, List.filter_cons_of_pos (by simpa using hlinked),
        List.map_cons, List.map_nil, ofAddress?_nodeLink h, List.singleton_append, List.map_cons]
    · rw [if_neg (fun hboth => hlinked hboth.2), List.filter_cons_of_neg (by simpa using hlinked),
        List.map_nil, List.nil_append]

/-- **The links of a graph**, read back: for each cluster its file and the nodes that a toggle
changes, all of them asked of the session that was drawn. -/
theorem ofAddress?_links {s : Session} (h : s.key.toList.head? = some '/') (config : GraphConfig)
    (whole : Bool) :
    (links (s.views config whole).browser).map
      (fun link => Request.ofAddress? (unescapeLabel link)) =
        ((config.graphOf (s.drawn whole)).clusters.flatMap Cluster.linkParams).map fun params =>
          some { path := s.key, params } := by
  have hcluster (cluster : Cluster) :
      (DotConfig.clusterLinks { interactive := true, baseUrl := percentEncoded s.key } cluster).map
        (fun link => Request.ofAddress? (unescapeLabel link)) =
          cluster.linkParams.map fun params => some { path := s.key, params } := by
    rw [DotConfig.clusterLinks, List.map_cons, ofAddress?_clusterLink h, ofAddress?_nodeLinks h,
      Cluster.linkParams, List.map_cons, List.map_map]
    rfl
  rw [browser_views_drawn, CallGraph.links_dot, List.map_flatMap, List.map_flatMap]
  exact List.flatMap_congr fun cluster _ => hcluster cluster

end Session

/-! ## Back to the session -/

namespace Sessions

theorem BuiltFrom.keyed {P : Tree → Prop} {sessions : Sessions} (h : BuiltFrom P sessions) :
    sessions.Keyed := by
  induction h with
  | empty => exact keyed_empty
  | add _ key _ ih => exact ih.add key _

end Sessions

namespace Server

/-- **Links lead back to their session.** A server stands on any framework that is as documented,
its sessions were built from any trees, and any history of requests has passed. Let a session have a
key that begins with a slash, is neither that of the index nor one of the framework's own pages, and
holds no line feed. The link of the index for this key, read as HTML, is the address of a request
for the path that is the key. The links in the text of the session's graph, read as labels, are
addresses of requests for that path as well, whether it shows the whole tree or what is left of it:
one for the file of each cluster and one for each node that a toggle changes. And such requests,
whatever their parameters are, get to the session under the key. -/
theorem links_lead_back {framework : Framework} (hdocumented : framework.Documented)
    {sessions : Sessions} {P : Tree → Prop} (hbuilt : sessions.BuiltFrom P) (config : GraphConfig)
    (history : List (FileSystem × Request)) {server : Server}
    (hserver : server = Server.after ⟨framework, sessions, config⟩ history)
    {key : String} {s : Session} (hs : server.sessions.get? key = some s)
    (hslash : key.toList.head? = some '/')
    (hindex : key ≠ "/") (hpages : key ∉ framework.pages) (hline : '\n' ∉ key.toList) :
    (∃ href : String → String,
      Page.hrefs (Page.index server.sessions.keys) = server.sessions.keys.map href ∧
      key ∈ server.sessions.keys ∧
      Request.ofAddress? (htmlUnescaped (href key)) = some { path := key }) ∧
    (∀ whole, (links (s.views server.config whole).browser).map
      (fun link => Request.ofAddress? (unescapeLabel link)) =
        ((server.config.graphOf (s.drawn whole)).clusters.flatMap Cluster.linkParams).map
          fun params => some { path := key, params }) ∧
    ∀ params fs, server.respond fs { path := key, params } =
      let request : Request := { path := key, params }
      server.showSession fs s (request.param? "id") (request.param? "file") := by
  have hkey : s.key = key := by
    subst hserver
    exact keyed_after hbuilt.keyed history key s hs
  refine ⟨⟨_, Page.hrefs_index _, ?_, ?_⟩, fun whole => ?_, fun params fs => ?_⟩
  · by_contra hnot
    rw [Table.get?_eq_none_iff.mpr hnot] at hs
    cases hs
  · rw [htmlUnescaped_htmlEscaped, Request.ofAddress?_percentEncoded hslash]
  · subst hkey
    exact Session.ofAddress?_links hslash _ whole
  · have hframework : server.framework = framework := by rw [hserver, (after_frame _ history).1]
    have hasks : framework.Asks { path := key, params } key :=
      hdocumented.asks ⟨hslash, hline⟩ rfl hindex hpages
    exact respond_of_asks (hframework ▸ hasks) hs fs

/-- A key in which every encoding has something to do. -/
def knottyKey : String := "/a b\"%41?x=1#&amp;<é>\\'+.py:3"

/-- A server with one session under that key. -/
def knottyServer : Server where
  framework := .standard id
  sessions := (Sessions.add .empty knottyKey HierarchyPlan.walkOnTwoLevels).1
  config := {}

/-- Its links lead back to it, those of a file and of a node among them. -/
theorem links_lead_back_knotty :
    knottyServer.framework.Documented ∧ knottyServer.sessions.BuiltFrom (fun _ => True) ∧
    ∃ s, knottyServer.sessions.get? knottyKey = some s ∧
      knottyKey.toList.head? = some '/' ∧ knottyKey ≠ "/" ∧
      knottyKey ∉ knottyServer.framework.pages ∧ '\n' ∉ knottyKey.toList ∧
      (∃ href, href ∈ Page.hrefs (Page.index knottyServer.sessions.keys) ∧
        Request.ofAddress? (htmlUnescaped href) = some { path := knottyKey }) ∧
      (∃ link ∈ links (s.views knottyServer.config true).browser,
        Request.ofAddress? (unescapeLabel link) =
          some { path := knottyKey, params := [("id", "1")] }) ∧
      knottyServer.respond {} { path := knottyKey } = knottyServer.showSession {} s none none := by
  have hdocumented : knottyServer.framework.Documented := Framework.documented_standard id
  have hbuilt : knottyServer.sessions.BuiltFrom fun _ => True := .add .empty _ trivial
  have hs : knottyServer.sessions.get? knottyKey =
      some { key := knottyKey, full := HierarchyPlan.walkOnTwoLevels } := by rfl
  have hslash : knottyKey.toList.head? = some '/' := by decide
  have hindex : knottyKey ≠ "/" := by decide
  have hpages : knottyKey ∉ knottyServer.framework.pages := by decide
  have hline : '\n' ∉ knottyKey.toList := by decide
  obtain ⟨⟨href, hhrefs, hkey, haddress⟩, hlinks, hrespond⟩ :=
    links_lead_back hdocumented hbuilt {} [] (rfl : knottyServer = _) hs hslash hindex hpages hline
  refine ⟨hdocumented, hbuilt, _, hs, hslash, hindex, hpages, hline, ⟨href knottyKey, ?_, haddress⟩,
    ?_, hrespond [] {}⟩
  · rw [hhrefs]
    exact List.mem_map_of_mem hkey
  · have hasked : [("id", "1")] ∈ (knottyServer.config.graphOf
        HierarchyPlan.walkOnTwoLevels).clusters.flatMap Cluster.linkParams := by decide +kernel
    refine List.mem_map.mp ?_
    rw [hlinks true]
    exact List.mem_map.mpr ⟨_, hasked, rfl⟩

end Server

end CallAtlas
