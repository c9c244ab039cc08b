import CallAtlas.CommandLine.Run

/-!
# The program

Reads the directories that the arguments concern, runs on them as a value, and then writes what is
new and prints what the run says. Only source and settings files are read in full; of all others it
matters only that they are there.
-/

namespace CallAtlas.CommandLine

/-- The extensions of files whose content is read. -/
def readSuffixes : List String := [sourceSuffix, stubSuffix, ".json"]

/-- Reads what stands at a path. A link becomes one to the path that it leads to. -/
partial def readEntry (path : String) : IO Entry := do
  let link := (← IO.FS.realPath path).toString
  if (Path.ofString link).name ≠ (Path.ofString path).name then return .link link
  else
    try
      let listing ← (← IO.FS.realPath path).readDir
      let entries ← listing.toList.filterMapM fun item => do
        try return some (item.fileName, ← readEntry (path ++ "/" ++ item.fileName))
        catch _ => return none
      return .directory entries
    catch _ =>
      if readSuffixes.contains (Path.ofString path).suffix then
        return .file (← IO.FS.readBinFile path)
      else return .file .empty

/-- The file system with an entry read into it, at the path that a text leads to. -/
def mount (fs : FileSystem) (text : String) : IO FileSystem := do
  try
    let path := Path.ofString text
    let real := Path.ofString (← IO.FS.realPath text).toString
    let fs ← if fs.pathExists real then pure fs else fs.insert real.parts <$> readEntry real.text
    return if fs.pathExists path || !path.isAbsolute then fs
      else fs.insert path.parts (.link real.text)
  catch _ => return fs

/-- The texts among the arguments and their settings that may name files. -/
def mentioned (fs : FileSystem) (arguments : List String) : List String :=
  match parseArguments arguments with
  | .error _ => []
  | .ok settings =>
    let merged := match mergedSettings .usual fs settings with
      | .ok merged => merged
      | .error _ => settings
    (settings ++ merged).filterMap fun
      | (_, .string text) => some text
      | _ => none

/-- Writes the files that a run has added or changed. -/
def writeBack (before after : FileSystem) : IO Unit := do
  for (path, content) in after.files do
    let same := match before.readBytes path with
      | .ok old => old.data == content.data
      | .error _ => false
    if !same then
      IO.FS.createDirAll path.parent.text
      IO.FS.writeBinFile path.text content

/-- The text for a run that was not handled. -/
def Failed.text : Failed → String
  | .settings _ => "error: the settings cannot be used"
  | .project _ => "error: the project cannot be read"
  | .batch _ => "error: the graphs cannot be written"

end CallAtlas.CommandLine

open CallAtlas CallAtlas.CommandLine in
/-- Runs the program with its arguments. -/
def main (arguments : List String) : IO UInt32 := do
  let directory := (← IO.FS.realPath (← IO.currentDir)).toString
  let fs ← mount { current := (Path.ofString directory).parts } directory
  let fs ← (mentioned fs arguments).foldlM mount fs
  let fs ← (mentioned fs arguments).foldlM mount fs
  let (outcome, after) := (run .usual arguments).run.run fs
  writeBack fs after
  match outcome with
  | .error failed =>
    IO.eprintln failed.text
    return 1
  | .ok o =>
    o.errors.forM fun line => IO.eprintln line
    o.output.forM fun line => IO.println line
    return o.exitCode.toUInt32
