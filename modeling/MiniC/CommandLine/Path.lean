/-!
# Paths

A path is the names between its slashes.  It starts at the root or at the working
directory, and a slash at its end asks for a directory.
-/

namespace MiniC
namespace CommandLine

/-- A path, as it is written. -/
structure Path where
  /-- Whether the path starts at the root. -/
  rooted : Bool
  /-- The names on the path, from left to right.  None is empty. -/
  names : List String
  /-- Whether the path ends in a slash. -/
  closed : Bool
  deriving DecidableEq

namespace Path

/-- The longest path, in bytes. -/
def longest : Nat := 4095

/-- The longest name, in bytes. -/
def longestName : Nat := 255

/-- The path that a text spells.  Slashes in a row count as one. -/
def ofText (text : String) : Path where
  rooted := text.startsWith "/"
  names := ((text.toList.splitOn '/').map String.ofList).filter (· ≠ "")
  closed := text.endsWith "/"

/-- Whether a name is that of an entry, unlike those of a directory itself and of
the directory above it. -/
def isEntryName (name : String) : Bool := name ≠ "." && name ≠ ".."

/-- Whether the last name is that of an entry which has to be a directory. -/
def asksForDirectory (path : Path) : Bool :=
  path.closed && path.names.getLast?.any isEntryName

end Path
end CommandLine
end MiniC
