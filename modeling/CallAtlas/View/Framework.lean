import CallAtlas.Json.Literal

/-!
# The framework under the server

The server is a set of handlers. A framework takes the requests, finds the handler for each and
reads the parameters that it is called with. For some requests it has answers of its own: its
documentation has pages beside those of the server, and a path or a method for which there is no
handler is refused.

The server works with any framework. What it may rely on is `Framework.Documented`;
`Framework.standard` is one that decides all the rest as well.
-/

namespace CallAtlas

/-- A request; the path and the parameters are decoded. -/
structure Request where
  path : String
  method : String := "GET"
  params : List (String × String) := []

/-- The last value of a parameter. -/
def Request.param? (r : Request) (name : String) : Option String :=
  (r.params.filter (·.1 == name)).getLast?.map Prod.snd

/-- What becomes of a request: one of the handlers is called, or the framework has an answer of its
own. -/
inductive Route where
  | index
  | view (path : String) (id file : Option String)
  | otherMethods
  | own (status : Nat) (body : String)
  deriving DecidableEq

/-- A framework. -/
structure Framework where
  /-- The paths of the pages that it serves on its own. -/
  pages : List String
  /-- What becomes of a request. -/
  route : Request → Route
  /-- The body of the response to an error that a handler has raised. -/
  detail : String → String

namespace Framework

/-- What is documented of the framework. The handlers are tried in their order, after the
framework's own pages: a `GET` for `/` gets the index, and one for any other path is a view of what
stands behind the slash, with the parameters `id` and `file`. Nothing but such a `GET` is a view.
Nothing is said about paths with a line feed, at which the match may stop. -/
structure Documented (f : Framework) : Prop where
  index {r : Request} : r.method = "GET" → r.path = "/" → f.route r = .index
  page {r : Request} : r.method = "GET" → r.path ∈ f.pages →
    ∃ status body, f.route r = .own status body
  view {r : Request} {path : String} : r.method = "GET" → r.path = "/" ++ path → path ≠ "" →
    r.path ∉ f.pages →
    '\n' ∉ r.path.toList → f.route r = .view path (r.param? "id") (r.param? "file")
  of_view {r : Request} {path : String} {id file : Option String} : f.route r = .view path id file →
    '\n' ∉ r.path.toList → r.method = "GET" ∧ r.path = "/" ++ path

/-- An error message as the text of a JSON object. -/
def detailText (message : String) : String :=
  "\x7b\"detail\":" ++ Json.literal false message ++ "\x7d"

/-- The line of a path. One line feed at its end does not count, and no other may occur. -/
def line? (path : String) : Option String :=
  let line := if path.toList.getLast? = some '\n' then path.toList.dropLast else path.toList
  if line.contains '\n' then none else some (String.ofList line)

/-- The pages of the documentation, where they are unless something else is said. -/
def standardPages : List String := ["/openapi.json", "/docs", "/docs/oauth2-redirect", "/redoc"]

/-- The framework as it is used, with the texts of its own pages. -/
def standard (pageText : String → String) : Framework where
  pages := standardPages
  route r :=
    match line? r.path with
    | none => .own 404 (detailText "Not Found")
    | some line =>
      match line.toList with
      | '/' :: path =>
        if r.method = "GET" then
          if standardPages.contains line then .own 200 (pageText line)
          else if path = [] then .index
          else .view (String.ofList path) (r.param? "id") (r.param? "file")
        else if ["POST", "PUT", "PATCH", "DELETE"].contains r.method then .otherMethods
        else if r.method = "HEAD" then .own (if standardPages.contains line then 200 else 405) ""
        else .own 405 (detailText "Method Not Allowed")
      | _ => .own 404 (detailText "Not Found")
  detail := detailText

end Framework

end CallAtlas
