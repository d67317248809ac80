import MiniC.CommandLine.Path
import MiniC.CommandLine.Run

/-!
# A model of files

A disk is a tree of directories with files and devices in it, one directory of
which is the working directory, beside standard output.  A path is followed name by
name, and every name but the last has to lead to a directory.  `Disk.run` runs the
program on a disk.
-/

namespace MiniC
namespace CommandLine

/-- A device: nothing, a full medium, standard input and standard output. -/
inductive Device
  | null
  | full
  | input
  | output
  deriving DecidableEq

/-- What can stand at a path. -/
inductive Entry
  | file (data : ByteArray)
  | device (device : Device)
  | directory

/-- Entries by the names that lead to them from the root. -/
structure Disk where
  /-- The names that lead to the working directory. -/
  home : List String
  /-- What stands below the root. -/
  entries : List (List String × Entry)
  /-- The text on standard output. -/
  shown : String
  /-- Why standard output takes no text, if it takes none. -/
  broken : Option FileError

/-- Where a path leads: to an entry, or to a name that is free in a directory. -/
inductive Target
  | taken (path : List String) (entry : Entry)
  | free (path : List String)

namespace Disk

/-- What stands at a place.  The root is a directory. -/
def entry? (disk : Disk) (place : List String) : Option Entry :=
  if place.isEmpty then some .directory else disk.entries.lookup place

/-- Put an entry at a place instead of what stood there. -/
def put (disk : Disk) (place : List String) (entry : Entry) : Disk :=
  { disk with entries := (place, entry) :: disk.entries.filter (·.1 ≠ place) }

/-- Follow names from a directory.  The directory above the root is the root. -/
def follow (disk : Disk) (here : List String) :
    List String -> Except FileError Target
  | [] => .ok (.taken here .directory)
  | name :: rest =>
      if name = "." then
        disk.follow here rest
      else if name = ".." then
        disk.follow here.dropLast rest
      else if Path.longestName < name.utf8ByteSize then
        .error .nameTooLong
      else
        match disk.entry? (here ++ [name]) with
        | some .directory => disk.follow (here ++ [name]) rest
        | some entry =>
            if rest.isEmpty then .ok (.taken (here ++ [name]) entry)
            else .error .notDirectory
        | none =>
            if rest.isEmpty then .ok (.free (here ++ [name]))
            else .error .notFound

/-- Follow names from where a path starts. -/
def followFrom (disk : Disk) (path : Path) (names : List String) :
    Except FileError Target :=
  disk.follow (if path.rooted then [] else disk.home) names

/-- The path that a text spells, unless it is too long. -/
def path (text : String) : Except FileError Path :=
  if Path.longest < text.utf8ByteSize then .error .nameTooLong
  else .ok (Path.ofText text)

/-- The bytes of an entry, with the given bytes as standard input.  A full medium
holds more bytes than any memory. -/
def bytes (input : ByteArray) : Entry -> Except FileError ByteArray
  | .file data => .ok data
  | .device .null => .ok ByteArray.empty
  | .device .full => .error .outOfMemory
  | .device .input => .ok input
  | .device .output => .ok ByteArray.empty
  | .directory => .error .isDirectory

/-- The bytes that a path leads to. -/
def read (disk : Disk) (input : ByteArray) (text : String) :
    Except FileError ByteArray := do
  let path ← Disk.path text
  match ← disk.followFrom path path.names with
  | .taken _ .directory => .error .isDirectory
  | .taken _ entry => if path.closed then .error .notDirectory else bytes input entry
  | .free _ => .error .notFound

/-- Write a text to standard output, at once or not at all. -/
def print (disk : Disk) (text : String) : Except FileError Disk :=
  match disk.broken with
  | some error => .error error
  | none => .ok { disk with shown := disk.shown ++ text }

/-- Make a text the contents of an entry.  A device takes the text and stays. -/
def replace (disk : Disk) (place : List String) (text : String) :
    Entry -> Except FileError Disk
  | .file _ => .ok (disk.put place (.file text.toUTF8))
  | .device .null => .ok disk
  | .device .full => .error .noSpace
  | .device .input => .ok disk
  | .device .output => disk.print text
  | .directory => .error .isDirectory

/-- Where a text for a path goes.  A path that asks for a directory is refused once
the directory that its last name belongs to is found. -/
def destination (disk : Disk) (path : Path) : Except FileError Target :=
  if path.asksForDirectory then do
    match ← disk.followFrom path path.names.dropLast with
    | .taken _ .directory => .error .isDirectory
    | .taken _ _ => .error .notDirectory
    | .free _ => .error .notFound
  else
    disk.followFrom path path.names

/-- Make a text the contents of what a path leads to. -/
def write (disk : Disk) (name text : String) : Except FileError Disk := do
  let path ← Disk.path name
  match ← disk.destination path with
  | .taken place entry => disk.replace place text entry
  | .free place => .ok (disk.put place (.file text.toUTF8))

/-- Change the disk, unless the change fails. -/
def alter (change : Disk -> Except FileError Disk) :
    StateM Disk (Except FileError Unit) := do
  match change (← get) with
  | .ok disk =>
      set disk
      return .ok ()
  | .error error => return .error error

/-- The operations on a disk, with the given bytes as standard input. -/
def system (input : ByteArray) : System (StateM Disk) where
  readFile path := return (← get).read input path
  readInput := return .ok input
  writeFile path text := alter (·.write path text)
  writeOutput text := alter (·.print text)

/-- Run the program on a disk: the outcome and the disk afterwards. -/
def run (disk : Disk) (input : ByteArray) (args : List String) : Outcome × Disk :=
  (CommandLine.run (system input) args).run disk

/-- Make the directories on the way to a place, and one at the place. -/
def makeDirectories (disk : Disk) (place : List String) : Disk :=
  (List.range place.length).foldl
    (fun disk length => disk.put (place.take (length + 1)) .directory) disk

/-- Add a directory to the working directory. -/
def addDirectory (disk : Disk) (names : List String) : Disk :=
  disk.makeDirectories (disk.home ++ names)

/-- Add a file to the working directory. -/
def addFile (disk : Disk) (names : List String) (data : ByteArray) : Disk :=
  (disk.makeDirectories (disk.home ++ names.dropLast)).put (disk.home ++ names)
    (.file data)

/-- The files in the working directory. -/
def localFiles (disk : Disk) : List (List String × ByteArray) :=
  disk.entries.filterMap fun (place, entry) =>
    match entry, disk.home.isPrefixOf? place with
    | .file data, some names => some (names, data)
    | _, _ => none

/-- The directories of a system in its root. -/
def systemDirectories : List String :=
  ["bin", "boot", "dev", "etc", "home", "lib", "media", "mnt", "opt", "proc",
    "root", "run", "sbin", "srv", "sys", "tmp", "usr", "var"]

/-- The devices of a system by their names. -/
def systemDevices : List (String × Device) :=
  [("null", .null), ("full", .full), ("stdin", .input), ("stdout", .output)]

/-- A disk with an empty working directory and no files, and with a standard output
that takes every text. -/
def blank : Disk where
  home := ["tmp", "work"]
  entries :=
    (["tmp", "work"], .directory)
      :: systemDirectories.map (fun name => ([name], .directory))
      ++ systemDevices.map (fun (name, device) => (["dev", name], .device device))
  shown := ""
  broken := none

end Disk
end CommandLine
end MiniC
