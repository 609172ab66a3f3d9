import DeclFront.Source.Range
import DeclFront.Token.Control
import DeclFront.Token.Keyword
import DeclFront.Token.Punctuator

/-!
# Token/Basic — tokens and their spelling

A `TokenKind` says what a token is and keeps enough of it to give its exact spelling back; a `Token`
adds the range it was read from. Control characters and comments are *trivia*: they separate
tokens and mean nothing to the grammar.
-/

namespace DeclFront

/-- The six ways to write a number. -/
inductive NumberForm where
  | binaryInteger
  | octalInteger
  | decimalInteger
  | hexadecimalInteger
  | decimalFloat
  | hexadecimalFloat
deriving DecidableEq, Repr

namespace NumberForm

/-- The form has a fraction or an exponent. -/
def isFloat : NumberForm → Bool
  | decimalFloat | hexadecimalFloat => true
  | _ => false

/-- The name of a form in a dump. -/
def label : NumberForm → String
  | binaryInteger => "BinaryInteger"
  | octalInteger => "OctalInteger"
  | decimalInteger => "DecimalInteger"
  | hexadecimalInteger => "HexadecimalInteger"
  | decimalFloat => "DecimalFloat"
  | hexadecimalFloat => "HexadecimalFloat"

end NumberForm

/-- A value written out. -/
inductive Literal where
  /-- A string, its text between the quotes as written. -/
  | string (interpolated : Bool) (raw : String)
  | number (form : NumberForm) (spelling : String)
  | boolean (value : Bool)
  | nil
deriving DecidableEq, Repr

namespace Literal

/-- The literal as it was written. -/
def spelling : Literal → String
  | string _ raw => "\"" ++ raw ++ "\""
  | number _ spelling => spelling
  | boolean true => "true"
  | boolean false => "false"
  | nil => "nil"

/-- The literal that a whole word is. -/
def ofWord? : String → Option Literal
  | "true" => some (boolean true)
  | "false" => some (boolean false)
  | "nil" => some nil
  | _ => none

theorem spelling_of_ofWord? {word : String} {literal : Literal} (h : ofWord? word = some literal) :
    literal.spelling = word := by
  unfold ofWord? at h
  split at h <;> simp_all <;> subst h <;> rfl

end Literal

/-- What a token is. -/
inductive TokenKind where
  | literal (value : Literal)
  | identifier (name : String)
  /-- A name between backticks. -/
  | quotedIdentifier (name : String)
  | keyword (keyword : Keyword)
  | punctuator (punctuator : Punctuator)
  | operator (spelling : String)
  /-- A comment with its delimiters. -/
  | comment (text : String)
  | control (control : Control)
  /-- A character that begins no token. -/
  | invalid (text : String)
deriving DecidableEq, Repr

namespace TokenKind

/-- The exact spelling of the token. -/
def spelling : TokenKind → String
  | literal value => value.spelling
  | identifier name => name
  | quotedIdentifier name => "\x60" ++ name ++ "\x60"
  | keyword k => k.word
  | punctuator p => p.spelling
  | operator spelling => spelling
  | comment text => text
  | control c => c.char.toString
  | invalid text => text

/-- The kinds that the rules of the grammar never see: comments and control characters. -/
def isTrivia : TokenKind → Bool
  | comment _ | control _ => true
  | _ => false

/-- What a whole word is: a literal, a keyword, or else an identifier. -/
def ofWord (word : String) : TokenKind :=
  match Literal.ofWord? word with
  | some value => literal value
  | none =>
    match Keyword.ofWord? word with
    | some k => keyword k
    | none => identifier word

/-- Whatever a word turns out to be, it is spelled as it was read. -/
theorem spelling_ofWord (word : String) : (ofWord word).spelling = word := by
  unfold ofWord
  split
  · rename_i value h
    exact Literal.spelling_of_ofWord? h
  · split
    · exact Keyword.word_eq_of_ofWord? ‹_›
    · rfl

/-- The name that a token gives: an identifier, bare or between backticks, or a contextual
keyword. -/
def name? : TokenKind → Option String
  | identifier name | quotedIdentifier name => some name
  | keyword k => if k.isContextual then some k.word else none
  | _ => none

/-- The kind of a given punctuator. -/
def isPunctuator (p : Punctuator) (kind : TokenKind) : Bool := kind == punctuator p

/-- The token is the keyword spelled `word`. -/
def isKeyword (word : String) : TokenKind → Bool
  | keyword k => k.word == word
  | _ => false

end TokenKind

/-- A token kind and where it was read. -/
structure Token where
  kind : TokenKind
  range : Range
deriving DecidableEq, Repr

namespace Token

/-- The text that a token was read from. -/
def spelling (t : Token) : String := t.kind.spelling

/-- The token is a comment or a control character. -/
def isTrivia (t : Token) : Bool := t.kind.isTrivia

end Token

end DeclFront
