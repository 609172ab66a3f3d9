import DeclFront.CommandLine.Directory
import DeclFront.CommandLine.Options
import DeclFront.Diagnostic.TerminalReporter
import DeclFront.Grammar.Outcome

/-!
# CommandLine/Run — one run of the program

A run parses each file in turn. It writes what was asked for to the standard output and the
progress, the diagnostics and the failures to the standard error. A file whose declarations fail
does not stop the run, one that cannot be read does. The exit code is 0 when every file could be
read and parsed without a failure, and else 1.
-/

namespace DeclFront.CommandLine

/-- What a run wrote, and its exit code. -/
structure Report where
  code : Nat
  stdout : String
  stderr : String
deriving DecidableEq, Repr

namespace Report

/-- Nothing printed, and nothing wrong. -/
def success : Report := ⟨0, "", ""⟩

/-- One report and then another; the run fails when one of them does. -/
def followedBy (first second : Report) : Report :=
  ⟨max first.code second.code, first.stdout ++ second.stdout, first.stderr ++ second.stderr⟩

end Report

/-! ## Reading a file -/

/-- Why a file cannot be read. -/
inductive ReadFault where
  | notUtf8
  | isDirectory
deriving DecidableEq, Repr

/-- How the fault of a file is shown. -/
def ReadFault.message : ReadFault → String
  | notUtf8 =>
    "Error \x7b kind: InvalidData, message: \"stream did not contain valid UTF-8\" \x7d"
  | isDirectory => "Os \x7b code: 21, kind: IsADirectory, message: \"Is a directory\" \x7d"

/-- The text of a file, if its bytes are UTF-8. -/
def Entry.read : Entry → Except ReadFault String
  | file bytes =>
    match String.fromUTF8? bytes with
    | some text => .ok text
    | none => .error .notUtf8
  | directory => .error .isDirectory

/-! ## What is written -/

/-- Each text on a line of its own. -/
def lines (texts : List String) : String := String.join (texts.map (· ++ "\n"))

/-- The lines that say how the program is called. -/
def usage (program : String) : String :=
  lines
    [ "",
      "Usage: " ++ program ++ " [--tokens] [--ast] [--no-color] <file>...",
      "",
      "  --tokens     Print every token with its source range",
      "  --ast        Print the text description of each declaration",
      "  --no-color   Disable colored diagnostics" ]

/-- The report of a run that does not start. -/
def UsageFault.report (program : String) (fault : UsageFault) : Report :=
  ⟨1, "", lines ["Error: " ++ fault.message] ++ usage program⟩

/-- The diagnostics as the terminal reporter leaves them. -/
def reportDiagnostics (coloured : Bool) (pool : DiagnosticPool) : TerminalReporter :=
  match (pool.report TerminalReporter.consume (.new coloured)).1 with
  | .ok _ reporter => reporter
  | .error _ reporter => reporter

/-- The last line about a file. -/
def verdict (path : String) (outcome : Outcome) (reporter : TerminalReporter) : String :=
  if outcome.isSuccess then
    "Parsed successfully. Found " ++ toString outcome.tree.declarations.length ++
      " top-level declarations (" ++ toString (reporter.errors + reporter.warnings) ++
      " diagnostics)."
  else
    "Parsing " ++ path ++ " failed: " ++ toString outcome.failures.length ++
      " declarations could not be parsed."

/-! ## Running over files -/

/-- Parses the text of one file. -/
def runText (options : Options) (coloured : Bool) (path text : String) : Report :=
  let stream := TokenStream.ofText path text
  let outcome := stream.parse
  let reporter := reportDiagnostics coloured outcome.diagnostics
  ⟨if outcome.isSuccess then 0 else 1,
    lines (if options.listTokens then stream.tokens.map Token.listing else []) ++
      lines (if options.printTree then outcome.tree.declarations.map Declaration.text else []),
    lines ["Parsing " ++ path ++ "..."] ++ reporter.output ++
      lines (outcome.failures.map ("Parser error: " ++ ·.text)) ++
      lines [verdict path outcome reporter]⟩

/-- Parses files in order, up to the first that cannot be read. -/
def runFiles (options : Options) (coloured : Bool) : List (String × Entry) → Report
  | [] => .success
  | (path, entry) :: files =>
    match entry.read with
    | .error fault => ⟨1, "", lines ["Error: " ++ fault.message]⟩
    | .ok text => (runText options coloured path text).followedBy (runFiles options coloured files)

/-- Finds every file, or the first that is missing. -/
def findAll (find : String → Option Entry) : List String → Except UsageFault (List (String × Entry))
  | [] => .ok []
  | file :: files =>
    match find file with
    | none => .error (.missing file)
    | some entry => (findAll find files).map ((file, entry) :: ·)

/-- A run of the program named `program` over the files that `find` finds; `terminal` tells whether
the standard error is one. -/
def run (program : String) (terminal : Bool) (find : String → Option Entry)
    (arguments : List String) : Report :=
  match Options.ofArguments arguments with
  | .error fault => fault.report program
  | .ok options =>
    match findAll find options.files with
    | .error fault => fault.report program
    | .ok files => runFiles options (terminal && !options.noColour) files

end DeclFront.CommandLine
