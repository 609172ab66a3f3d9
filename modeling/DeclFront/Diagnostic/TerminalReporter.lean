import DeclFront.Diagnostic.Consumer

/-!
# Diagnostic/TerminalReporter — diagnostics as lines on a terminal

A `Reporter` hands one line per diagnostic, plain or coloured, to a writer, and counts errors and
warnings. It counts a diagnostic before it writes the line, so one whose line is refused is counted.
A `TerminalReporter` is a reporter whose writer keeps the text.
-/

namespace DeclFront

/-- A terminal style, by the control sequences that start it. -/
structure TerminalStyle where
  codes : List String

namespace TerminalStyle

/-- The style of ranges. -/
def dim : TerminalStyle := ⟨["2m"]⟩

/-- The style of the word for an error. -/
def boldRed : TerminalStyle := ⟨["38;5;9m", "1m"]⟩

/-- The style of the word for a warning. -/
def boldYellow : TerminalStyle := ⟨["38;5;11m", "1m"]⟩

/-- One control sequence. -/
def sequence (code : String) : String := "\x1b[" ++ code

/-- A text in the style, with all styles off after it. -/
def apply (style : TerminalStyle) (s : String) : String :=
  String.join (style.codes.map sequence) ++ s ++ sequence "0m"

end TerminalStyle

/-- The style in which the word for a severity is written. -/
def Severity.style : Severity → TerminalStyle
  | error => .boldRed
  | warning => .boldYellow

/-- The diagnostic as `Diagnostic.text` writes it, with its range and its severity set off. -/
def Diagnostic.colouredText (d : Diagnostic) : String :=
  TerminalStyle.dim.apply d.range.text ++ " " ++ d.severity.style.apply d.severity.text ++ ": " ++
    d.message

/-! ## Writers -/

/-- What takes text line by line; it may refuse a line, and keeps its state when it does. -/
abbrev LineWriter (ε ω : Type) := String → EStateM ε ω Unit

/-- Text that has been written. -/
structure Transcript where
  /-- Nothing can be written any more. -/
  closed : Bool
  text : String
deriving DecidableEq, Repr

/-- Writes behind the text so far. -/
def Transcript.write : LineWriter ConsumerFault Transcript := fun line => do
  if (← get).closed then throw .closed
  modify fun t => ⟨t.closed, t.text ++ line⟩

/-! ## Reporters -/

/-- A reporter's counts, and the state of the writer behind it. -/
structure Reporter (ω : Type) where
  coloured : Bool
  errors : Nat
  warnings : Nat
  writer : ω
deriving DecidableEq, Repr

namespace Reporter

variable {ε ω : Type}

/-- Counts a diagnostic by its severity. -/
def count (r : Reporter ω) (d : Diagnostic) : Reporter ω :=
  match d.severity with
  | .error => ⟨r.coloured, r.errors + 1, r.warnings, r.writer⟩
  | .warning => ⟨r.coloured, r.errors, r.warnings + 1, r.writer⟩

/-- The line for a diagnostic. -/
def line (r : Reporter ω) (d : Diagnostic) : String :=
  (if r.coloured then d.colouredText else d.text) ++ "\n"

/-- The reporter with its writer in another state. -/
def withWriter (r : Reporter ω) (writer : ω) : Reporter ω :=
  ⟨r.coloured, r.errors, r.warnings, writer⟩

/-- Hands a line to the writer. -/
def write (write : LineWriter ε ω) (line : String) : EStateM ε (Reporter ω) Unit := fun r =>
  match write line r.writer with
  | .ok () writer => .ok () (r.withWriter writer)
  | .error fault writer => .error fault (r.withWriter writer)

/-- Counts a diagnostic and then writes its line. -/
def consume (write : LineWriter ε ω) : DiagnosticConsumer ε (Reporter ω) := fun d => do
  modify (·.count d)
  Reporter.write write ((← get).line d)

end Reporter

/-- A reporter that keeps what it has written. -/
abbrev TerminalReporter := Reporter Transcript

namespace TerminalReporter

/-- A reporter that has written nothing. -/
def new (coloured : Bool) : TerminalReporter := ⟨coloured, 0, 0, ⟨false, ""⟩⟩

/-- A plain reporter whose every write is refused. -/
def newClosed : TerminalReporter := ⟨false, 0, 0, ⟨true, ""⟩⟩

/-- What the reporter has written. -/
def output (r : TerminalReporter) : String := r.writer.text

/-- Counts a diagnostic and then writes its line, which fails when the transcript is closed. -/
def consume : DiagnosticConsumer ConsumerFault TerminalReporter := Reporter.consume Transcript.write

end TerminalReporter

end DeclFront
