import CallAtlas.Json.Literal
import CallAtlas.Text.Html
import CallAtlas.Text.Percent

/-!
# Pages

The HTML of the index of all call sites and of the page that draws one graph. Texts that go into the
script of a page are written as ASCII literals in which no tag can end the script.
-/

namespace CallAtlas.Page

open Text

/-- Keeps a closing tag in a script from being one. -/
def guardTags : List Char → List Char
  | '<' :: '/' :: rest => '<' :: '\\' :: '/' :: guardTags rest
  | c :: rest => c :: guardTags rest
  | [] => []

/-- A text as a literal in a script. -/
def scriptLiteral (text : String) : String :=
  String.ofList (guardTags (Json.literal true text).toList)

/-- Lines of text, each with a line feed at its end. -/
def ofLines (lines : List String) : String := String.join (lines.map (· ++ "\n"))

/-- The line of the index for a key. -/
def indexLine (key : String) : String :=
  "    <li><a href=\"" ++ htmlEscaped (percentEncoded key) ++ "\">" ++
    htmlEscaped key ++ "</a></li>"

/-- The index of some keys. -/
def index (keys : List String) : String :=
  ofLines [
    "<!DOCTYPE html>",
    "<html lang=\"en\">",
    "<head>",
    "  <meta charset=\"UTF-8\">",
    "  <meta name=\"viewport\" content=\"width=device-width, initial-scale=1.0\">",
    "  <meta name=\"color-scheme\" content=\"light dark\">",
    "  <title>Call Sites</title>",
    "  <style>a \x7b font-size: 1.5rem; \x7d</style>",
    "</head>",
    "<body>",
    "  <ul>",
    "\n".intercalate (keys.map indexLine),
    "  </ul>",
    "</body>",
    "</html>"]

/-- A key without the slashes at its ends, as the name of an image file. -/
def downloadName (key : String) : String :=
  let inner := ((key.toList.dropWhile (· == '/')).reverse.dropWhile (· == '/')).reverse
  String.ofList (inner.map fun c => if c == '/' then '_' else c) ++ ".svg"

/-- The page that draws a graph, with the texts that stand in its script: two graphs and the name of
an image file. -/
def graphWith (browser download name : String) : String :=
  ofLines [
    "<!DOCTYPE html>",
    "<html lang=\"en\">",
    "<head>",
    "  <meta charset=\"UTF-8\">",
    "  <meta name=\"viewport\" content=\"width=device-width, initial-scale=1.0\">",
    "  <title>Call Graph</title>",
    "  <style>",
    "  .download \x7b display: flex; justify-content: flex-end; \x7d",
    "  .button \x7b font-size: 1.5rem; \x7d",
    "  </style>",
    "</head>",
    "<body>",
    "  <div class=\"download\"><button class=\"button\">Download</button></div>",
    "  <div id=\"graph\"></div>",
    "</body>",
    "<script type=\"module\">",
    "  import \x7b Graphviz \x7d from \"https://cdn.jsdelivr.net/npm/@hpcc-js/wasm/dist/graphviz.js\";",
    "",
    "  const graphviz = await Graphviz.load();",
    "  const dotForBrowser = " ++ browser ++ ";",
    "  const dotForDownload = " ++ download ++ ";",
    "",
    "  const div = document.getElementById(\"graph\");",
    "  if (div) \x7b",
    "    div.innerHTML = graphviz.layout(dotForBrowser, \"svg\", \"dot\");",
    "  \x7d",
    "",
    "  const button = document.querySelector(\".button\");",
    "  if (button) \x7b",
    "    button.addEventListener(\"click\", () => \x7b",
    "      const a = document.createElement(\"a\");",
    "      const blob = new Blob([graphviz.layout(dotForDownload, \"svg\", \"dot\")], \x7btype: \"image/svg+xml\"\x7d);",
    "      a.download = " ++ name ++ ";",
    "      a.href = URL.createObjectURL(blob);",
    "      a.click();",
    "      URL.revokeObjectURL(a.href);",
    "    \x7d);",
    "  \x7d",
    "</script>",
    "</html>"]

/-- The page that draws the graph of a key. -/
def graph (key browser download : String) : String :=
  graphWith (scriptLiteral browser) (scriptLiteral download) (scriptLiteral (downloadName key))

end CallAtlas.Page
