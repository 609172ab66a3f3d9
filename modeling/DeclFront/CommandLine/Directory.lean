/-!
# CommandLine/Directory — named files in memory

A `Directory` holds entries under paths of one name or more. `Directory.find?` looks up a path that
is written with slashes: `.` and empty names stay where they are, `..` goes up, and every name but
the last has to be a directory. Nothing is known of what lies outside, except that directories
enclose the directory itself.
-/

namespace DeclFront.CommandLine

/-- What a name in a directory stands for. -/
inductive Entry where
  | file (bytes : ByteArray)
  | directory

/-- A directory by the paths of what it holds. -/
structure Directory where
  entries : List (List String × Entry)

namespace Directory

/-- Where a path has led so far. -/
inductive Place where
  /-- At the entry of this path; the directory itself has the empty path. -/
  | inside (path : List String)
  /-- At a directory around the directory itself. -/
  | outside
deriving DecidableEq, Repr

/-- The names of a written path. -/
def names (path : String) : List String := path.splitOn "/"

/-- The entry at a path. A path that others go through is a directory. -/
def entryAt? (d : Directory) (path : List String) : Option Entry :=
  match d.entries.find? (·.1 == path) with
  | some (_, entry) => some entry
  | none => if d.entries.any (path.isPrefixOf ·.1) then some .directory else none

/-- What stands at a place; what lies around the directory is known to be directories. -/
def entry? (d : Directory) : Place → Option Entry
  | .inside [] => some .directory
  | .inside path => d.entryAt? path
  | .outside => some .directory

/-- One name further. -/
def step (d : Directory) (place : Place) (name : String) : Option Place :=
  match d.entry? place with
  | some .directory =>
    if name = "" ∨ name = "." then some place
    else
      match place with
      | .outside => if name = ".." then some .outside else none
      | .inside path =>
        if name = ".." then some (if path.isEmpty then .outside else .inside path.dropLast)
        else if (d.entryAt? (path ++ [name])).isSome then some (.inside (path ++ [name]))
        else none
  | _ => none

/-- The entry that a written path leads to. The empty path leads nowhere. -/
def find? (d : Directory) (path : String) : Option Entry :=
  if path = "" then none
  else
    let start := if path.startsWith "/" then .outside else .inside []
    ((names path).foldlM d.step start).bind d.entry?

end Directory

end DeclFront.CommandLine
