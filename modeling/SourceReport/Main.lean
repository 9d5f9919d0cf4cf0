import SourceReport.CommandLine

/-!
# The program

Collects the files that a command line can need into a tree, runs the command line on it and writes
what comes out.
-/

namespace SourceReport
namespace Main

abbrev Files := List (List Text × List UInt8)

/-- The names that lead to a path from the root of the file system. -/
def placeOf (cwd : List Text) (path : Path) : List Text :=
  let tree : FileTree := { root := "", cwd, files := [], directories := [] }
  (tree.resolve path).names

def readFile (cwd : List Text) (path : Path) : IO Files := do
  try
    let bytes ← IO.FS.readBinFile path.text.shown
    return [(placeOf cwd path, bytes.data.toList)]
  catch _ => return []

def readFiles (cwd : List Text) (paths : List Path) : IO Files := do
  return (← paths.mapM (readFile cwd)).flatten

def readDirectory (cwd : List Text) (path : Path) : IO (List (List Text)) := do
  try
    let found ← IO.FS.realPath path.text.shown
    return if ← found.isDir then [placeOf cwd path] else []
  catch _ => return []

/-- What the arguments may name: each as it stands, and what follows an equals sign in it. -/
def namedPaths (args : List String) : List Path :=
  args.flatMap fun arg =>
    let (_, joined) := CommandLine.splitOption arg
    (arg :: joined.toList).map fun (text : String) => Path.ofText text

/-- The settings files in a directory and in all above it. -/
def settingsPaths (cwd : List Text) : List Path :=
  (List.range (cwd.length + 1)).map fun depth =>
    { root := "/", parts := cwd.take depth ++ [.whole Settings.fileName] }

def sourcePaths (path : Path) (bytes : List UInt8) : List Path :=
  match Utf8.decode? bytes with
  | some text => Document.sourcePaths path text
  | none => []

def loadTree (args : List String) : IO FileTree := do
  let cwd := (Path.ofText (← IO.currentDir).toString).parts
  let named := namedPaths args
  let settings ← readFiles cwd (settingsPaths cwd)
  let documents ← readFiles cwd named
  let sources ← named.mapM fun path => do
    let found ← readFile cwd path
    readFiles cwd (found.flatMap fun file => sourcePaths path file.2)
  let directories ← named.mapM (readDirectory cwd)
  return {
    root := ""
    cwd
    files := settings ++ documents ++ sources.flatten
    directories := cwd :: directories.flatten }

end Main
end SourceReport

open SourceReport in
def main (args : List String) : IO UInt32 := do
  let tree ← Main.loadTree args
  let outcome := CommandLine.run tree (← (← IO.getStdout).isTty) args
  IO.print outcome.stdout
  IO.eprint outcome.stderr
  match outcome.fault with
  | some fault => IO.eprintln ("Error: " ++ fault.message)
  | none => pure ()
  return outcome.status.toUInt32
