import SourceReport.Path

/-!
# File trees

The files that a run can see: a tree of directories and files, and the directory that relative paths
start from. Whatever lies above the root of the tree is unknown and taken to hold nothing.
-/

namespace SourceReport

/-!
# Access
-/

inductive AccessError where
  | missing | notDirectory | isDirectory | nameTooLong
  deriving DecidableEq, Repr

namespace AccessError

def text (error : AccessError) (path : Text) : String :=
  (match error with
    | .missing => "[Errno 2] No such file or directory: "
    | .notDirectory => "[Errno 20] Not a directory: "
    | .isDirectory => "[Errno 21] Is a directory: "
    | .nameTooLong => "[Errno 36] File name too long: ") ++ path.quoted

end AccessError

inductive FileNode where
  | file (bytes : List UInt8)
  | directory
  deriving DecidableEq, Repr

structure FileTree where
  /-- How the root of the tree is written in an absolute path. The tree of a whole file system has
  an empty root, and only such a tree holds what absolute paths name. -/
  root : String
  cwd : List Text
  files : List (List Text × List UInt8)
  directories : List (List Text)
  deriving Repr

namespace FileTree

/-- The most bytes in the name of a file. -/
def nameLimit : Nat := 255

/-- The most bytes in a path. -/
def pathLimit : Nat := 4095

/-- What lies at a place, given by the names that lead to it from the root. -/
def node? (tree : FileTree) (place : List Text) : Option FileNode :=
  match tree.files.find? (·.1 = place) with
  | some (_, bytes) => some (.file bytes)
  | none =>
      if place.isEmpty || tree.directories.any (place.isPrefixOf ·) ||
          tree.files.any (place.isPrefixOf ·.1) then some .directory
      else none

/-!
# Places

A place is given by the names that lead to it: from the root of the tree, or from somewhere above
the root, where nothing is known to lie.
-/

inductive Place where
  | inside (names : List Text)
  | outside (names : List Text)
  deriving DecidableEq, Repr

namespace Place

def names : Place → List Text
  | .inside names => names
  | .outside names => names

def up : Place → Place
  | .inside names => if names.isEmpty then .outside [] else .inside names.dropLast
  | .outside names => .outside names.dropLast

def child (place : Place) (name : Text) : Place :=
  match place with
  | .inside names => .inside (names ++ [name])
  | .outside names => .outside (names ++ [name])

/-- Where a part of a path leads, whether or not there is anything. -/
def along (place : Place) (part : Text) : Place :=
  if part = ".." then place.up else place.child part

/-- The same place with only some of its names. -/
def take (place : Place) (count : Nat) : Place :=
  match place with
  | .inside names => .inside (names.take count)
  | .outside names => .outside (names.take count)

/-- A place and those above it, from the inside out. -/
def levels (place : Place) : List Place :=
  (List.range (place.names.length + 1)).reverse.map place.take

end Place

def nodeAt? (tree : FileTree) : Place → Option FileNode
  | .inside names => tree.node? names
  | .outside [] => some .directory
  | .outside _ => none

/-- Walks along the parts of a path. Every part but the last has to be a directory; whether a name is
too long is asked before what is there. -/
def walk (tree : FileTree) (place : Place) : List Text → Except AccessError FileNode
  | [] =>
      match tree.nodeAt? place with
      | some node => .ok node
      | none => .error .missing
  | part :: rest =>
      match tree.nodeAt? place with
      | none => .error .missing
      | some (.file _) => .error .notDirectory
      | some .directory =>
          if nameLimit < part.fileLength then .error .nameTooLong
          else tree.walk (place.along part.asFileName) rest

def startOf (tree : FileTree) (path : Path) : Place :=
  if !path.isAbsolute then .inside tree.cwd
  else if tree.root.isEmpty then .inside []
  else .outside []

def lookup (tree : FileTree) (path : Path) : Except AccessError FileNode :=
  if pathLimit < path.text.fileLength then .error .nameTooLong
  else tree.walk (tree.startOf path) path.parts

def read (tree : FileTree) (path : Path) : Except AccessError (List UInt8) :=
  match tree.lookup path with
  | .ok (.file bytes) => .ok bytes
  | .ok .directory => .error .isDirectory
  | .error error => .error error

/-!
# Searching upward
-/

/-- The place that a path names, whether or not there is anything. -/
def resolve (tree : FileTree) (path : Path) : Place :=
  path.parts.foldl Place.along (tree.startOf path)

def absoluteText (tree : FileTree) : Place → String
  | .inside names => "/".intercalate (tree.root :: names.map Text.shown)
  | .outside names => "/".intercalate ("" :: names.map Text.shown)

/-- Whether there is a file at a place. A name that is too long leaves the question open. -/
def isFile (tree : FileTree) (place : Place) : Except AccessError Bool :=
  if pathLimit < (tree.absoluteText place).utf8ByteSize then .error .nameTooLong
  else
    match tree.walk (place.take 0) place.names with
    | .ok (.file _) => .ok true
    | .ok .directory => .ok false
    | .error .nameTooLong => .error .nameTooLong
    | .error _ => .ok false

/-- The first of some directories that holds a file of the name. -/
def findIn (tree : FileTree) (name : Text) : List Place → Except AccessError (Option Place)
  | [] => .ok none
  | place :: rest => do
      if ← tree.isFile (place.child name) then return some (place.child name)
      else tree.findIn name rest

/-- The nearest file of a name in the directory of a path or in those above it. -/
def findUpward (tree : FileTree) (name : Text) (start : Path) : Except AccessError (Option Place) :=
  tree.findIn name (tree.resolve start).levels

end FileTree
end SourceReport
