import DeclFront.CommandLine.Run

/-!
# Main — the command line

Finds what the arguments name, runs the program over it and writes its report.
-/

namespace DeclFront.CommandLine

/-- The file or directory at a path of the file system. -/
def findEntry (path : String) : IO (Option Entry) := do
  match ← (IO.FS.realPath path).toBaseIO with
  | .error _ => return none
  | .ok resolved =>
    if ← resolved.isDir then return some .directory
    return some (.file (← IO.FS.readBinFile resolved))

end DeclFront.CommandLine

open DeclFront.CommandLine in
/-- Looks the arguments up in the file system and prints the report on them. -/
def main (arguments : List String) : IO UInt32 := do
  let program ← IO.appPath
  let terminal ← (← IO.getStderr).isTty
  let entries ← arguments.mapM fun path => return (path, ← findEntry path)
  let report := run program.toString terminal (fun path => (entries.lookup path).join) arguments
  IO.print report.stdout
  IO.eprint report.stderr
  return report.code.toUInt32
