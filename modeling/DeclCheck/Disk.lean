/-!
# Stored files

The library looks at stored files in two ways only: whether a path names a file, and what text the file
holds. A file may be there without holding a text.

A *tree* is a concrete set of files, each under the names of the directories that lead to it. Paths are
walked one name at a time. Every name but the last has to lead to a directory; an empty name and a single
dot stay where they are, and two dots go back to the directory above. Nothing is known above the top of
the tree. A path that is written with too many bytes leads nowhere, wherever its names would lead.
-/

namespace DeclCheck

/-- **Files as the library sees them.** -/
structure Disk where
  /-- Whether a path names a file. -/
  isFile : String → Bool
  /-- The text of the file that a path names. -/
  text? : String → Option String

/-- A path from the top of a tree, as the names along it. -/
abbrev TreePath := List String

/-- **A set of directories and files**, each with its path from the top. Of two files under one path the
first counts. -/
structure FileTree where
  directories : List TreePath
  files : List (TreePath × String)
  deriving Repr, Inhabited

namespace FileTree

/-- The tree without files. -/
def empty : FileTree := ⟨[], []⟩

/-- Whether a path leads to a directory. The top is one. -/
def isDirectory (tree : FileTree) (path : TreePath) : Bool :=
  path.isEmpty || tree.directories.contains path

/-- The path reached from a directory by one name of a walk. -/
def enter (path : TreePath) (name : String) : Option TreePath :=
  if name = "" || name = "." then some path
  else if name = ".." then if path.isEmpty then none else some path.dropLast
  else some (path ++ [name])

/-- The path reached by walking along names. Every step starts from a directory. -/
def walk (tree : FileTree) (path : TreePath) : List String → Option TreePath
  | [] => some path
  | name :: names =>
    if tree.isDirectory path then (enter path name).bind fun path => tree.walk path names
    else none

/-- The names along a written path. -/
def names (path : String) : List String := path.splitOn "/"

/-- A written path has fewer bytes than this. -/
def pathLimit : Nat := 4096

/-- Whether a written path leads anywhere from the top of a tree. -/
def isWalkable (path : String) : Bool :=
  !path.isEmpty && !path.startsWith "/" && path.utf8ByteSize < pathLimit

/-- The text of the file that a written path leads to from the top. -/
def text? (tree : FileTree) (path : String) : Option String :=
  if isWalkable path then (tree.walk [] (names path)).bind fun path => tree.files.lookup path
  else none

/-- The tree with the directories along names, and the path of the last of them. -/
def makeDirectories (tree : FileTree) (path : TreePath) : List String → FileTree × TreePath
  | [] => (tree, path)
  | name :: names =>
    let path := (enter path name).getD path
    makeDirectories { tree with directories := path :: tree.directories } path names

/-- Store a file under a written path. The directories along it are made where they are missing. -/
def store (tree : FileTree) (path text : String) : FileTree :=
  let names := names path
  let (tree, directory) := tree.makeDirectories [] names.dropLast
  { tree with files := (directory ++ [names.getLastD ""], text) :: tree.files }

/-- The tree of files stored one after another under written paths. -/
def ofFiles (files : List (String × String)) : FileTree :=
  files.foldl (fun tree (path, text) => tree.store path text) empty

/-- The tree as the library sees it. -/
def disk (tree : FileTree) : Disk := ⟨fun path => (tree.text? path).isSome, tree.text?⟩

end FileTree

end DeclCheck
