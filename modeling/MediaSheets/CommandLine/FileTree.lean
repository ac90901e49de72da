import MediaSheets.CommandLine.Files

/-!
# File trees

Files and directories as a map from locations to contents, the directory that a program runs in, and
the program's file operations on them. A path is followed part by part: each part but the last has
to lead to a directory, also where the next one goes back. There are no links, so different
locations are different places.
-/

namespace MediaSheets.CommandLine

/-- Where something can stand: the names that lead there from the root, the last one first. -/
abbrev Location := List String

/-- Where one part of a path leads from a directory. A step back from the root stays there. -/
def Location.step (location : Location) (part : String) : Location :=
  if isIdle part then location else if part = ".." then location.tail else part :: location

inductive Node
  | file (content : ByteArray)
  | directory

/-- What stands where, and the directory that paths lead from unless they begin with a slash. -/
structure FileTree where
  current : Location
  nodes : Location → Option Node

/-- Nothing but a directory below the root, which is the current one. -/
def FileTree.empty : FileTree := ⟨["work"], fun _ => none⟩

def FileTree.put (tree : FileTree) (location : Location) (node : Node) : FileTree :=
  { tree with nodes := fun other => if other = location then some node else tree.nodes other }

/-- What stands at a location. The current directory is there, and so are those that it lies in. -/
def FileTree.node? (tree : FileTree) (location : Location) : Option Node :=
  if location.isSuffixOf tree.current then some .directory else tree.nodes location

structure Path where
  /-- Whether a slash at the front says that the path leads from the root. -/
  rooted : Bool
  parts : List String
  /-- Whether a slash at the end says that the path leads to a directory. -/
  closed : Bool
  deriving DecidableEq, Repr

/-- The path that a text stands for, unless it is empty. -/
def Path.ofText? (text : String) : Option Path :=
  if text = "" then none
  else
    let parts := Text.split '/' text
    some {
      rooted := parts.head? = some ""
      parts := (parts.reverse.dropWhile (· == "")).reverse
      closed := parts.getLast? = some "" }

def Path.start (path : Path) (current : Location) : Location := if path.rooted then [] else current

/-- Where parts of a path lead from a location that has to be a directory if there are any. -/
def FileTree.follow (tree : FileTree) (location : Location) :
    List String → Except FileFault Location
  | [] => .ok location
  | part :: parts =>
    match tree.node? location with
    | none => .error .missing
    | some (.file _) => .error .notDirectory
    | some .directory => tree.follow (location.step part) parts

/-- Where a text leads, and whether it says that this is a directory. -/
def FileTree.locate (tree : FileTree) (text : String) : Except FileFault (Location × Bool) :=
  match Path.ofText? text with
  | none => .error .missing
  | some path =>
    (tree.follow (path.start tree.current) path.parts).map (·, path.closed)

def FileTree.readText (tree : FileTree) (text : String) : Except FileFault String := do
  let (location, closed) ← tree.locate text
  match tree.node? location with
  | none => throw .missing
  | some .directory => throw .isDirectory
  | some (.file content) =>
    if closed then throw .notDirectory
    match String.fromUTF8? content with
    | some s => return s
    | none => throw .notText

/-- The tree with a directory at every step along parts of a path, or why this breaks off, with
the directories made until then. A file at the end, or one that comes after a directory that was
`made`, has the name of a directory that is to be made. -/
def FileTree.makeSteps (tree : FileTree) (location : Location) (made : Bool) :
    List String → Except (FileFault × FileTree) FileTree
  | [] => .ok tree
  | part :: parts =>
    let location := location.step part
    match tree.node? location with
    | some .directory => tree.makeSteps location made parts
    | some (.file _) =>
      .error (if made || parts.isEmpty then .alreadyExists else .notDirectory, tree)
    | none => (tree.put location .directory).makeSteps location true parts

/-- The tree with a directory, and with those it lies in, or what comes of making them. -/
def FileTree.makeDirectories (tree : FileTree) (text : String) :
    Except (FileFault × FileTree) FileTree :=
  match Path.ofText? text with
  | none => .ok tree
  | some path => tree.makeSteps (path.start tree.current) false path.parts

def FileTree.writeText (tree : FileTree) (text content : String) : Except FileFault FileTree := do
  let (location, closed) ← tree.locate text
  match tree.node? location with
  | some .directory => throw .isDirectory
  | _ => if closed then throw .isDirectory else return tree.put location (.file content.toUTF8)

/-- A file is written as a whole or not at all; directories are made one by one, and those made
before a fault stay. -/
instance : FileSystem (StateM FileTree) where
  readText path := fun tree => (tree.readText path, tree)
  createDirectories path := fun tree =>
    match tree.makeDirectories path with
    | .ok tree => (.ok (), tree)
    | .error (fault, tree) => (.error fault, tree)
  writeText path content := fun tree =>
    match tree.writeText path content with
    | .ok tree => (.ok (), tree)
    | .error fault => (.error fault, tree)

end MediaSheets.CommandLine
