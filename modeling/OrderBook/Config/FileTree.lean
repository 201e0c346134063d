import OrderBook.Config.Basic
import OrderBook.Text.Bytes

/-!
Files and directories as a value, and paths through them. A path is followed name by name, from the
root or from the working directory. Nothing stands below a file, so a path that goes on after one, if
only with a slash, leads nowhere.
-/

namespace OrderBook

inductive FileNode where
  | directory
  | file (content : List UInt8)

/-- A place, as the names that lead to it from the root, the last one first. -/
abbrev Place := List String

structure FileTree where
  nodes : List (Place × FileNode)
  workingDirectory : Place := []

namespace FileTree

/-- What stands at a place. The root is a directory in every tree. -/
def node? (t : FileTree) : Place → Option FileNode
  | [] => some .directory
  | place => t.nodes.lookup place

/-- Goes from a directory to one of its names, to itself or to its parent. The root is its own
parent. -/
def step? (t : FileTree) (place : Place) (name : String) : Option Place :=
  match t.node? place with
  | some .directory =>
    if name = "" || name = "." then some place
    else if name = ".." then some place.tail
    else if (t.node? (name :: place)).isSome then some (name :: place)
    else none
  | _ => none

def follow? (t : FileTree) (place : Place) (names : List String) : Option Place :=
  names.foldlM t.step? place

/-- The parts of a path between its slashes; there is always one. -/
def segments : List Char → List (List Char)
  | [] => [[]]
  | c :: cs =>
    if c = '/' then [] :: segments cs
    else
      match segments cs with
      | [] => [[c]]
      | s :: ss => (c :: s) :: ss

/-- The first length in bytes of a path that no system follows. -/
def pathLimit : Nat := 4096

/-- Where a path leads. The empty path leads nowhere, and so does one that is too long. -/
def resolve? (t : FileTree) (path : String) : Option Place :=
  let names := (segments path.toList).map String.ofList
  if path.isEmpty || pathLimit ≤ path.utf8ByteSize then none
  else t.follow? (if names.head? = some "" then [] else t.workingDirectory) names

/-- The text of the file at a path. -/
def readText (t : FileTree) (path : String) : Except ConfigError String :=
  match (t.resolve? path).bind t.node? with
  | none => .error (.fileNotFound path)
  | some .directory => .error .unreadable
  | some (.file content) => (Text.ofBytes? content).elim (.error .unreadable) .ok

def directories : List String := ["bin", "boot", "dev", "etc", "home", "lib", "media", "mnt", "opt",
  "proc", "root", "run", "sbin", "srv", "sys", "tmp", "usr", "var"]

/-- What every system has: the usual directories below the root, and a null device, in which there is
nothing to read. Nothing is known to stand in the working directory. -/
def standard : FileTree where
  nodes := (["null", "dev"], .file []) :: directories.map fun name => ([name], .directory)
  workingDirectory := ["home"]

end FileTree

end OrderBook
