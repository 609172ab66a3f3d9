import DeclFront.Text.Quoted
import DeclFront.Token.Basic

/-!
# Token/Description — tokens in words

`TokenKind.description` names a token in a message to the user. `TokenKind.dump` writes a token
kind as a nested term that shows all it holds, on one line.
-/

namespace DeclFront

/-- The term with one argument. -/
private def dumpTerm (head argument : String) : String := head ++ "(" ++ argument ++ ")"

/-- A category as a term. -/
def KeywordCategory.dump : KeywordCategory → String
  | contextual kind => dumpTerm "Contextual" kind.label
  | category => category.label

/-- A keyword as a record. -/
def Keyword.dump (keyword : Keyword) : String :=
  "Keyword \x7b text: " ++ Quoted.encode keyword.word ++ ", category: " ++ keyword.category.dump ++
    " \x7d"

namespace Literal

/-- The name of the kind of literal. -/
def label : Literal → String
  | string false _ => "StaticString"
  | string true _ => "InterpolatedString"
  | number form _ => form.label
  | boolean true => "True"
  | boolean false => "False"
  | nil => "Nil"

/-- A literal as a term; texts are quoted. -/
def dump (value : Literal) : String :=
  match value with
  | string _ raw => dumpTerm value.label (Quoted.encode raw)
  | number _ spelling => dumpTerm value.label (Quoted.encode spelling)
  | _ => value.label

/-- How a failure names a literal that it has found. -/
def description : Literal → String
  | string false raw => "string literal \"" ++ raw ++ "\""
  | string true raw => "interpolated string literal \"" ++ raw ++ "\""
  | number form spelling =>
    (if form.isFloat then "float literal " else "integer literal ") ++ spelling
  | boolean value => "boolean literal '" ++ (boolean value).spelling ++ "'"
  | nil => "'nil'"

end Literal

namespace TokenKind

/-- The name of the kind of token. -/
def label : TokenKind → String
  | literal _ => "Literal"
  | identifier _ => "Identifier"
  | quotedIdentifier _ => "BacktickIdentifier"
  | keyword _ => "Keyword"
  | punctuator _ => "Punctuator"
  | operator _ => "Operator"
  | comment _ => "Comment"
  | control _ => "Control"
  | invalid _ => "Invalid"

/-- A kind as a term; texts are quoted. -/
def dump (kind : TokenKind) : String :=
  dumpTerm kind.label <|
    match kind with
    | literal value => value.dump
    | keyword k => k.dump
    | punctuator p => p.label
    | control c => c.label
    | identifier text | quotedIdentifier text | operator text | comment text | invalid text =>
      Quoted.encode text

/-- How a failure names the token that it has found. -/
def description : TokenKind → String
  | literal value => value.description
  | identifier name => "identifier '" ++ name ++ "'"
  | quotedIdentifier name => "identifier '\x60" ++ name ++ "\x60'"
  | keyword k => "keyword '" ++ k.word ++ "'"
  | punctuator p => "'" ++ p.spelling ++ "'"
  | operator spelling => "operator '" ++ spelling ++ "'"
  | comment _ => "comment"
  | control c => c.label
  | invalid text => "invalid token " ++ Quoted.encode text

end TokenKind

/-- The token's range and kind, as one line of a token listing shows them. -/
def Token.listing (t : Token) : String := t.range.text ++ " " ++ t.kind.dump

end DeclFront
