import DeclFront.Source.Range

/-!
# Diagnostic/Basic — messages about a source text
-/

namespace DeclFront

/-- How bad a diagnostic is. -/
inductive Severity where
  | error
  | warning
deriving DecidableEq, Repr

/-- The word for a severity in a diagnostic. -/
def Severity.text : Severity → String
  | error => "error"
  | warning => "warning"

/-- A message and the range that it is about. -/
structure Diagnostic where
  severity : Severity
  message : String
  range : Range
deriving DecidableEq, Repr

namespace Diagnostic

/-- The diagnostic is an error, not a warning. -/
def isError (d : Diagnostic) : Bool := d.severity == .error

/-- The diagnostic on a line: where, how bad, and what. -/
def text (d : Diagnostic) : String :=
  d.range.text ++ " " ++ d.severity.text ++ ": " ++ d.message

end Diagnostic

end DeclFront
