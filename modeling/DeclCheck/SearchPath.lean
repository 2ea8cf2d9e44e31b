import DeclCheck.Disk
import DeclCheck.Format.Codec

/-!
# Finding and loading units

A unit is named by the path of its file, or by a name that is looked up in a list of directories. In each
directory the name is tried as it is, and then with each of the endings that unit files have. Imports are
not followed.
-/

namespace DeclCheck

/-- **The directories that are searched for units**, in order. -/
structure SearchPath where
  directories : List String
  deriving DecidableEq, Repr, Inhabited

/-- A name inside a directory. An absolute name stands for itself. -/
def joinPath (directory name : String) : String :=
  if name.startsWith "/" || directory.isEmpty then name
  else if directory.endsWith "/" then directory ++ name
  else directory ++ "/" ++ name

/-- What two spellings of one path share: its names, without empty ones and single dots. A dot in front
counts, and so does a slash. -/
def pathSteps (path : String) : List String :=
  match path.splitOn "/" with
  | "" :: first :: rest => "/" :: (first :: rest).filter (fun name => name != "" && name != ".")
  | [""] | [] => []
  | first :: rest => first :: rest.filter (fun name => name != "" && name != ".")

/-- Read the unit stored under a path. It takes the path for its name if it has none. -/
def Disk.loadUnit (disk : Disk) (notes : ReaderNotes) (path : String) : Except Error SourceUnit :=
  match disk.text? path with
  | none => refuse (.importFailed path) .nowhere
  | some text => SourceUnit.ofText notes text path

namespace SearchPath

/-- The search starts in the current directory. -/
def initial : SearchPath := ⟨["."]⟩

/-- Search a directory too, after the others. One that is searched already is not added, whichever way it
is spelled. -/
def add (search : SearchPath) (directory : String) : SearchPath :=
  if search.directories.any (fun other => pathSteps other == pathSteps directory) then search
  else ⟨search.directories ++ [directory]⟩

/-- The endings that a name is tried with. -/
def endings : List String := ["", ".pine.json", ".json"]

/-- The paths that are tried for a name, in order. -/
def candidates (search : SearchPath) (name : String) : List String :=
  name :: search.directories.flatMap fun directory =>
    endings.map fun ending => joinPath directory (name ++ ending)

/-- The path of the unit of a name: the first candidate that is a file. -/
def find? (search : SearchPath) (disk : Disk) (name : String) : Option String :=
  (search.candidates name).find? disk.isFile

/-- **Load the unit of a name.** -/
def load (search : SearchPath) (notes : ReaderNotes) (disk : Disk) (name : String) :
    Except Error SourceUnit :=
  match search.find? disk name with
  | none => refuse (.importFailed name) .nowhere
  | some path => disk.loadUnit notes path

end SearchPath

end DeclCheck
