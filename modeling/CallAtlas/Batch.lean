import CallAtlas.FileSystem.Write
import CallAtlas.Hierarchy.Builder
import CallAtlas.Settings.Options
import CallAtlas.SourceFile
import CallAtlas.Graph.Dot

/-!
# Graphs for all call sites

From options to hierarchies, and from hierarchies to files. Every call site of the entry files is
handled on its own: its tree is grown, drawn and written to a DOT file with an image beside it. Call
sites without a tree or without anything to draw leave no file. What a run finds on its machine, the
stack and the program that draws the images, is a parameter.
-/

namespace CallAtlas

/-- Draws an image from a DOT text, in a format, or fails with a message. -/
abbrev Painter := String → String → Except String ByteArray

/-- The painter that only records the format, for a renderer that reads the DOT file. -/
def Painter.placeholder : Painter := fun _ format => .ok ("image:" ++ format).toUTF8

/-- What a run finds on its machine: room for so many levels on the stack, what draws the images,
the directories of the standard library, and the limits for its settings. -/
structure Machine where
  room : Nat
  paint : Painter
  standard : List Path
  platform : Platform

/-- A machine with the usual stack and limits, on which images are placeholders. -/
def Machine.usual : Machine := ⟨stackRoom, .placeholder, standardDirectories, .usual⟩

/-- Why a graph was not written. -/
inductive WriteError where
  | unsupportedFormat (format : String)
  | file (error : FileError)
  | image (message : String)
  deriving Repr, DecidableEq

/-- The text for a format that is not supported. -/
def WriteError.unsupportedMessage (format : String) : String :=
  "Unsupported output format: " ++ format

/-- The path with an extension added to its name. -/
def Path.withExtension (p : Path) (extension : String) : Path :=
  Path.ofString (p.text ++ "." ++ extension)

/-- Writes a DOT text and its image, and gives the path of the image. The text is written before the
image is drawn. -/
def writeGraph (paint : Painter) (dot : String) (base : Path) (format : String) :
    ExceptT WriteError (StateM FileSystem) Path := do
  if !outputFormats.contains format then throw (.unsupportedFormat format)
  ExceptT.adapt WriteError.file do
    FileAction.makeDirectories base.parent
    FileAction.writeText (base.withExtension "dot") dot
  match paint dot format with
  | .error message => throw (.image message)
  | .ok image =>
    ExceptT.adapt WriteError.file (FileAction.writeBytes (base.withExtension format) image)
  return base.withExtension format

namespace Options

/-- Grows the tree of a call site. -/
def grow (o : Options) (m : Machine) (r : Resolver Unit) (site : CallSite) : Growing :=
  let plan : HierarchyPlan := { site, maxDepth := o.maxDepth, room := m.room }
  (plan.grow r o.direction ()).1

/-- Where the graph of a call site is written, without an extension. -/
def outputBase (o : Options) (site : CallSite) : Path := site.outputBase (some o.root) o.output

/-- The call sites of the entry files. -/
def collect (o : Options) (fs : FileSystem) : Except SourceError Collection :=
  fs.collectCallSites (o.line.map Int.ofNat) o.entry

/-- The trees of call sites, without those that have none, and what was reported. -/
def growAll (o : Options) (m : Machine) (r : Resolver Unit) (sites : List CallSite) :
    List (CallSite × Tree) × List LogEntry :=
  let grown := sites.map fun site => (site, o.grow m r site)
  (grown.filterMap fun (site, g) => g.tree.map (site, ·), grown.flatMap fun (_, g) => g.logs)

end Options

/-- What came of a call site: the image that was written, if any. -/
structure SiteReport where
  image : Except WriteError (Option Path)
  logs : List LogEntry := []

/-- What came of all call sites. -/
structure BatchReport where
  written : List Path := []
  logs : List LogEntry := []

/-- Why a batch fails. -/
inductive BatchError where
  | source (error : SourceError)
  | write (error : WriteError)
  deriving Repr, DecidableEq

namespace Options

/-- The drawing of a call site with the log entries on the way: empty if there is nothing to
draw. -/
def draw (o : Options) (m : Machine) (r : Resolver Unit) (site : CallSite) :
    String × List LogEntry :=
  let growing := o.grow m r site
  match growing.tree with
  | none => ("", growing.logs)
  | some tree =>
    let dot := tree.drawing (o.graphConfig m.standard)
    if dot.isEmpty then
      let entry : LogEntry :=
        ⟨.info, "callscope.pipeline", "No drawable calls for " ++ site.file.text ++ ":" ++
        toString site.position.line ++ " (" ++ site.called ++ "), nothing written"⟩
      ("", growing.logs ++ [entry])
    else (dot, growing.logs)

/-- Handles one call site. -/
def process (o : Options) (m : Machine) (r : Resolver Unit) (site : CallSite) :
    StateM FileSystem SiteReport := do
  let (dot, logs) := o.draw m r site
  if dot.isEmpty then return { image := .ok none, logs }
  else
    let image ← (writeGraph m.paint dot (o.outputBase site) o.format).run
    return { image := image.map some, logs }

/-- The images of all call sites in order, or the first failure. -/
def imagesOf (reports : List SiteReport) : Except WriteError (List Path) :=
  reports.filterMapM SiteReport.image

/-- Handles all call sites of the entry files. -/
def runBatch (o : Options) (m : Machine) (r : Resolver Unit) :
    ExceptT BatchError (StateM FileSystem) BatchReport := do
  let collection ← match o.collect (← get) with
    | .ok c => pure c
    | .error e => throw (.source e)
  if collection.sites.isEmpty then
    let entry : LogEntry := ⟨.warning, "callscope.pipeline",
      "No call sites found in " ++ toString o.entry.length ++ " file(s)"⟩
    return { logs := collection.logs ++ [entry] }
  else
    let reports ← (collection.sites.mapM (o.process m r) : StateM FileSystem (List SiteReport))
    match imagesOf reports with
    | .ok written => return { written, logs := collection.logs ++ reports.flatMap SiteReport.logs }
    | .error e => throw (.write e)

end Options

end CallAtlas
