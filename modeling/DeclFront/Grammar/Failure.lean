import DeclFront.Syntax.Declaration
import DeclFront.Token.Description

/-!
# Grammar/Failure — why a declaration cannot be read

A `Cause` says what the grammar wanted and which token stood there instead; a `Failure` adds the
range to blame, which at the end of the text is the empty range behind the last token.
-/

namespace DeclFront

/-- What the grammar wants next. -/
inductive Expectation where
  | attributeName
  | setKeyword (level : AccessLevel)
  | closeAfterSet
  | declaration
  | enumName
  | openBrace
  | caseOrClose
  | elementName
  | importName
  | pathSegment
deriving DecidableEq, Repr

/-- How a failure names what was looked for. -/
def Expectation.text : Expectation → String
  | attributeName => "identifier after '@'"
  | setKeyword level => "'set' in '" ++ level.text ++ "' modifier"
  | closeAfterSet => "')' after 'set'"
  | declaration => "declaration"
  | enumName => "identifier after 'enum'"
  | openBrace => "'\x7b' after enum name"
  | caseOrClose => "'case' or '\x7d' in enum body"
  | elementName => "identifier for enum case"
  | importName => "identifier after 'import'"
  | pathSegment => "identifier in import path"

/-- Why the grammar cannot go on. -/
inductive Cause where
  /-- Another token, or the end of the text, stands where something was wanted. -/
  | unexpected (wanted : Expectation) (found : Option Token)
  /-- The text ends inside the attribute arguments that the token opens. -/
  | unclosedArguments (opening : Token)
deriving DecidableEq, Repr

namespace Cause

/-- What was looked for and what was found instead; a clause left open has no "found". -/
def message : Cause → String
  | unexpected wanted none => "Expected " ++ wanted.text ++ ", found end of file"
  | unexpected wanted (some t) => "Expected " ++ wanted.text ++ ", found " ++ t.kind.description
  | unclosedArguments _ => "Expected ')' to close attribute arguments"

/-- The range to blame, in a text that ends at `stop`. -/
def range (stop : Location) : Cause → Range
  | unexpected _ none => .empty stop
  | unexpected _ (some t) => t.range
  | unclosedArguments opening => opening.range

end Cause

/-- A cause and the range to blame. -/
structure Failure where
  cause : Cause
  range : Range
deriving DecidableEq, Repr

namespace Failure

/-- The failure for a cause, in a text that ends at `stop`. -/
def ofCause (stop : Location) (cause : Cause) : Failure := ⟨cause, cause.range stop⟩

/-- What went wrong, without the place. -/
def message (failure : Failure) : String := failure.cause.message

/-- What went wrong, with the place in front. -/
def text (failure : Failure) : String :=
  "Parse error at " ++ failure.range.text ++ ": " ++ failure.message

end Failure

end DeclFront
