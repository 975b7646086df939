import RingTape.Fault
import RingTape.Text.Basic

/-!
# A tree of files

Program texts are read from a tree of files. A path is a list of names between slashes and is
followed name by name: an empty name and a single point stay where they are, which only a
directory allows, and two points go up. The empty path names nothing, and only the tree itself can
be reached: above it, and from the root of the file system, there are directories and nothing in
them that a name leads to.
-/

namespace RingTape

/-- What is at a place in a tree. -/
inductive FileEntry where
  /-- A file and its bytes. -/
  | file (bytes : List UInt8)
  /-- A directory. -/
  | directory
deriving DecidableEq, Repr

/-- A place in a tree: the names on the way to it. -/
abbrev Place := List String

/-- A tree of files. -/
structure FileTree where
  /-- The files; of two at the same place the later counts. -/
  files : List (Place × List UInt8)
  /-- The directories, besides those that hold something. -/
  directories : List Place

namespace FileTree

/-- The names of a path. -/
def names (path : String) : List String :=
  (path.toList.splitOn '/').map String.ofList

/-- The place that a path names if it is taken literally. -/
def placeOf (path : String) : Place :=
  (names path).filter fun name => name != "" && name != "."

/-- The tree with the given files and directories, each at a path. -/
def ofPaths (files : List (String × List UInt8)) (directories : List String) : FileTree :=
  ⟨files.map fun (path, bytes) => (placeOf path, bytes), directories.map placeOf⟩

/-- What is at a place. A place on the way to something is a directory. -/
def entry? (tree : FileTree) (place : Place) : Option FileEntry :=
  match tree.files.reverse.find? fun file => file.1 == place with
  | some file => some (.file file.2)
  | none =>
    if place.isEmpty || tree.files.any (fun file => place.isPrefixOf file.1) ||
        tree.directories.any (fun directory => place.isPrefixOf directory) then
      some .directory
    else none

/-- Follows names from a directory that is not in the tree. -/
def outside (names : List String) : Except Fault FileEntry :=
  if names.all fun name => name == "" || name == "." || name == ".." then .ok .directory
  else .error .notFound

/-- Follows names from a place. -/
def follow (tree : FileTree) (place : Place) : List String → Except Fault FileEntry
  | [] =>
    match tree.entry? place with
    | some entry => .ok entry
    | none => .error .notFound
  | name :: rest =>
    match tree.entry? place with
    | none => .error .notFound
    | some (.file _) => .error .notDirectory
    | some .directory =>
      if name = "" ∨ name = "." then tree.follow place rest
      else if name = ".." then
        if place = [] then outside rest else tree.follow place.dropLast rest
      else tree.follow (place ++ [name]) rest

/-- What a path leads to. -/
def lookup (tree : FileTree) (path : String) : Except Fault FileEntry :=
  match names path with
  | [""] => .error .notFound
  | "" :: rest => outside rest
  | path => tree.follow [] path

/-- **Reads a file.** A directory cannot be read. -/
def read (tree : FileTree) (path : String) : Except Fault (List UInt8) :=
  match tree.lookup path with
  | .ok (.file bytes) => .ok bytes
  | .ok .directory => .error .isDirectory
  | .error fault => .error fault

end FileTree

end RingTape
