/-!
# Files

The files that sources read and collectors write: one directory of named contents. A path that leads
out of it leads nowhere.
-/

namespace RowFlow

/-- A directory: each name with its content. -/
structure Files where
  entries : List (String × List UInt8)
  deriving DecidableEq, Inhabited

namespace Files

def empty : Files := ⟨[]⟩

/-- Whether a path names a place in the directory. -/
def reaches (path : String) : Bool := path ≠ "" && !path.toList.contains '/'

/-- The content of a file, if it exists. -/
def read? (files : Files) (path : String) : Option (List UInt8) := files.entries.lookup path

/-- Replaces the content of a file, or creates it. -/
def write (files : Files) (path : String) (content : List UInt8) : Files :=
  ⟨(path, content) :: files.entries.filter (·.1 ≠ path)⟩

/-- Adds to the end of a file. -/
def append (files : Files) (path : String) (content : List UInt8) : Files :=
  files.write path ((files.read? path).getD [] ++ content)

end Files

end RowFlow
