import DeclFront.Unicode.Alphabetic
import DeclFront.Unicode.Numeric

/-!
# Lexeme/Character — the characters that words, numbers and operators are made of
-/

namespace DeclFront

/-- The character can begin an identifier. -/
def isIdentifierHead (c : Char) : Bool := c == '_' || Unicode.isAlphabetic c

/-- The character can stand inside an identifier. -/
def isIdentifierChar (c : Char) : Bool :=
  c == '_' || Unicode.isAlphabetic c || Unicode.isNumeric c

/-- What can begin an identifier can stand in it too. -/
theorem isIdentifierChar_of_isIdentifierHead {c : Char} (h : isIdentifierHead c) :
    isIdentifierChar c := by
  simp only [isIdentifierHead] at h
  simp [isIdentifierChar, h]

/-- The characters that runs of operators are made of. -/
def isOperatorChar (c : Char) : Bool :=
  ['/', '=', '-', '+', '!', '*', '%', '<', '>', '&', '|', '^', '~', '?'].contains c

/-- The digits behind `0b`. -/
def isBinaryDigit (c : Char) : Bool := c == '0' || c == '1'

/-- The digits behind `0o`. -/
def isOctalDigit (c : Char) : Bool := '0' ≤ c && c ≤ '7'

/-- The digits behind `0x`. -/
def isHexadecimalDigit (c : Char) : Bool :=
  c.isDigit || ('a' ≤ c && c ≤ 'f') || ('A' ≤ c && c ≤ 'F')

/-- The character ends a line comment, and no string goes past it outside an interpolation. -/
def isLineEnd (c : Char) : Bool := c == '\n' || c == '\r'

end DeclFront
