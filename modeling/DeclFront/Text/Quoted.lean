import DeclFront.Unicode.DefaultIgnorable
import DeclFront.Unicode.GraphemeExtend
import DeclFront.Unicode.Printable

/-!
# Text/Quoted — text between double quotes, on one line

`Quoted.encode` writes a text so that it shows on one line and can be told from every other: null,
tab, carriage return, line feed, the double quote and the backslash become a backslash and one
more character, and any other character that a reader could not see standing by itself becomes its
code point in hexadecimal between braces, after `\u`. Those are the unprintable characters, the
ones that are ignorable by default, and the ones that combine with the character before them.
-/

namespace DeclFront.Quoted

/-- The code point of a character in lower-case hexadecimal, without leading zeros. -/
def hexadecimal (c : Char) : List Char := Nat.toDigits 16 c.toNat

/-- The character shows by itself in a text. -/
def isVisible (c : Char) : Bool :=
  Unicode.isPrintable c && !Unicode.isDefaultIgnorable c && !Unicode.isCombining c

/-- The written form of one character. -/
def escape (c : Char) : List Char :=
  match c with
  | '\x00' => ['\\', '0']
  | '\t' => ['\\', 't']
  | '\r' => ['\\', 'r']
  | '\n' => ['\\', 'n']
  | '\"' => ['\\', '\"']
  | '\\' => ['\\', '\\']
  | c =>
    if isVisible c then [c] else ['\\', 'u', '\x7b'] ++ hexadecimal c ++ ['\x7d']

/-- The text between double quotes, each character in its written form. -/
def encode (s : String) : String :=
  String.ofList ('\"' :: s.toList.flatMap escape ++ ['\"'])

end DeclFront.Quoted
