import CallAtlas.FileSystem.Basic
import CallAtlas.Text.Integer
import CallAtlas.View.Framework
import CallAtlas.View.Page
import CallAtlas.View.Session

/-!
# Answering requests

The sessions are served under their keys. A plain request shows the whole tree; with an `id` that is
an integer a node is toggled and what is then shown comes back; with a `file` the text of a file
below the root of the project. Requests for anything else are sent to the index at `/`.
-/

namespace CallAtlas

/-- The body of a response: a text, or the highlighted text of a file. -/
inductive Body where
  | text (content : String)
  | source (file : Path)
  deriving Repr, DecidableEq

/-- A response. -/
structure Response where
  status : Nat := 200
  location : Option String := none
  body : Body

namespace Response

/-- A page. -/
def page (html : String) : Response := { body := .text html }

/-- A response that sends the browser to the index. -/
def toIndex : Response := { status := 302, location := some "/", body := .text "" }

end Response

/-- What a server serves: the sessions, and how their trees are drawn. It stands on a framework. -/
structure Server where
  framework : Framework
  sessions : Sessions
  config : GraphConfig

/-- The identifier of a node, as it is given in a request; a value that is no integer is ignored. -/
def nodeId? (id : Option String) : Option Int :=
  id.bind fun text => Text.Integer.readInt? text.toList

namespace Server

/-- Shows a file below the root of the project. -/
def showFile (server : Server) (fs : FileSystem) (file : String) : Except FileError Response := do
  let root ← server.config.root.mapM fs.resolve
  let target ← fs.resolve (Path.ofString file)
  if fs.isFile target && root.all (·.isProperAncestor target) then
    let _ ← fs.readText target
    return { body := .source target }
  else return { status := 404, body := .text (server.framework.detail (file ++ " not found")) }

/-- The page of a session. -/
def sessionPage (server : Server) (s : Session) (whole : Bool) : Response :=
  let views := s.views server.config whole
  .page (Page.graph s.key views.browser views.download)

/-- Shows a session: what is left of its tree after a toggle, a file, or the whole tree. -/
def showSession (server : Server) (fs : FileSystem) (s : Session) (id file : Option String) :
    Except FileError Response × Server :=
  match nodeId? id with
  | some id =>
    match s.toggle id with
    | .ok s =>
      let server := { server with sessions := server.sessions.put s.key s }
      (.ok (server.sessionPage s false), server)
    | .error e => (.ok { status := 500, body := .text e.message }, server)
  | none =>
    match file.filter (· ≠ "") with
    | some file => (server.showFile fs file, server)
    | none => (.ok (server.sessionPage s true), server)

/-- Shows the session under a path, if there is one. -/
def view (server : Server) (fs : FileSystem) (path : String) (id file : Option String) :
    Except FileError Response × Server :=
  match server.sessions.get? ("/" ++ path) with
  | some s => server.showSession fs s id file
  | none => (.ok .toIndex, server)

/-- Answers a request. -/
def respond (server : Server) (fs : FileSystem) (request : Request) :
    Except FileError Response × Server :=
  match server.framework.route request with
  | .index => (.ok (.page (Page.index server.sessions.keys)), server)
  | .view path id file => server.view fs path id file
  | .otherMethods => (.ok .toIndex, server)
  | .own status body => (.ok { status, body := .text body }, server)

end Server

end CallAtlas
