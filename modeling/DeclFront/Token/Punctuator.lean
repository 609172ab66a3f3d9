/-!
# Token/Punctuator — the punctuation that the grammar knows

Most punctuators are *delimiters*, single characters that never belong to an operator. Four are
operator characters that stand alone, and the arrow is a token of its own.
-/

namespace DeclFront

/-- A mark of the grammar. -/
inductive Punctuator where
  | leftParen
  | rightParen
  | leftBrace
  | rightBrace
  | leftSquare
  | rightSquare
  | period
  | comma
  | colon
  | semicolon
  | equal
  | atSign
  | pound
  | amp
  | arrow
  | backtick
  | exclaim
  | question
deriving DecidableEq, Repr

namespace Punctuator

/-- The one character that a punctuator is. -/
def spelling : Punctuator → String
  | leftParen => "("
  | rightParen => ")"
  | leftBrace => "\x7b"
  | rightBrace => "\x7d"
  | leftSquare => "["
  | rightSquare => "]"
  | period => "."
  | comma => ","
  | colon => ":"
  | semicolon => ";"
  | equal => "="
  | atSign => "@"
  | pound => "#"
  | amp => "&"
  | arrow => "->"
  | backtick => "\x60"
  | exclaim => "!"
  | question => "?"

/-- The name of a punctuator in a dump. -/
def label : Punctuator → String
  | leftParen => "LeftParen"
  | rightParen => "RightParen"
  | leftBrace => "LeftBrace"
  | rightBrace => "RightBrace"
  | leftSquare => "LeftSquare"
  | rightSquare => "RightSquare"
  | period => "Period"
  | comma => "Comma"
  | colon => "Colon"
  | semicolon => "Semicolon"
  | equal => "Equal"
  | atSign => "At"
  | pound => "Pound"
  | amp => "Amp"
  | arrow => "Arrow"
  | backtick => "Backtick"
  | exclaim => "Exclaim"
  | question => "Question"

/-- The punctuator that a delimiter character is, wherever it stands. -/
def ofDelimiter? : Char → Option Punctuator
  | '(' => some leftParen
  | ')' => some rightParen
  | '\x7b' => some leftBrace
  | '\x7d' => some rightBrace
  | '[' => some leftSquare
  | ']' => some rightSquare
  | '.' => some period
  | ',' => some comma
  | ':' => some colon
  | ';' => some semicolon
  | '@' => some atSign
  | '#' => some pound
  | '\x60' => some backtick
  | _ => none

/-- The punctuator that a run of operator characters is, when it is no operator. -/
def ofOperator? : String → Option Punctuator
  | "=" => some equal
  | "!" => some exclaim
  | "&" => some amp
  | "?" => some question
  | _ => none

/-- A delimiter is spelled as it was read. -/
theorem spelling_of_ofDelimiter? {c : Char} {p : Punctuator} (h : ofDelimiter? c = some p) :
    p.spelling.toList = [c] := by
  unfold ofDelimiter? at h
  split at h <;> simp_all <;> subst h <;> rfl

/-- So is an operator that stands alone. -/
theorem spelling_of_ofOperator? {s : String} {p : Punctuator} (h : ofOperator? s = some p) :
    p.spelling = s := by
  unfold ofOperator? at h
  split at h <;> simp_all <;> subst h <;> rfl

end Punctuator

end DeclFront
