import DeclFront.Lexeme.Basic
import DeclFront.Lexeme.Character

/-!
# Lexeme/Numeral — numbers

A run of digits starts with a digit and goes on over digits and underscores. A number is a run of
decimal digits, or `0` with the letter of another base and a run of that base's digits; it may carry
a minus sign. A decimal number with a fraction, an exponent or both is a float, and so is a
hexadecimal one with an exponent, which may have a fraction before it.

The forms are tried longer ones first (`NumberForm.inOrder`), so that no number ends where another
form would read on.
-/

namespace DeclFront

namespace Munch

/-- A digit, and then digits and underscores. -/
def run (isDigit : Char → Bool) : Munch := (one isDigit).seq (many fun c => isDigit c || c == '_')

/-- A minus sign, if there is one. -/
def sign : Munch := (char '-').optional

/-- An integer after `0` and the letter of its base. -/
def based (letter : Char) (isDigit : Char → Bool) : Munch :=
  sign.seq ((char '0').seq ((char letter).seq (run isDigit)))

/-- A point and a run of digits. -/
def fraction (isDigit : Char → Bool) : Munch := (char '.').seq (run isDigit)

/-- One of the letters, a sign or none, and a run of decimal digits. -/
def exponent (letters : List Char) : Munch :=
  (one letters.contains).seq ((one ['+', '-'].contains).optional.seq (run Char.isDigit))

end Munch

namespace NumberForm

/-- The texts of the form. -/
def munch : NumberForm → Munch
  | binaryInteger => .based 'b' isBinaryDigit
  | octalInteger => .based 'o' isOctalDigit
  | decimalInteger => Munch.sign.seq (.run Char.isDigit)
  | hexadecimalInteger => .based 'x' isHexadecimalDigit
  | decimalFloat =>
    Munch.sign.seq ((Munch.run Char.isDigit).seq
      (((Munch.fraction Char.isDigit).seq (Munch.exponent ['e', 'E']).optional).orElse
        (.exponent ['e', 'E'])))
  | hexadecimalFloat =>
    (Munch.based 'x' isHexadecimalDigit).seq
      ((Munch.fraction isHexadecimalDigit).optional.seq (.exponent ['p', 'P']))

/-- The forms, each before those that could read only a part of it. -/
def inOrder : List NumberForm :=
  [hexadecimalFloat, hexadecimalInteger, binaryInteger, octalInteger, decimalFloat, decimalInteger]

/-- A number of any form has a character, so reading one goes on. -/
theorem consumes_munch (form : NumberForm) : form.munch.Consumes := by
  have run (isDigit : Char → Bool) : (Munch.run isDigit).Consumes :=
    (Munch.consumes_one isDigit).seq_left _
  have based (letter : Char) (isDigit : Char → Bool) : (Munch.based letter isDigit).Consumes :=
    .seq_right _ (.seq_left (Munch.consumes_one _) _)
  cases form
  · exact based _ _
  · exact based _ _
  · exact .seq_right _ (run _)
  · exact based _ _
  · exact .seq_right _ ((run _).seq_left _)
  · exact (based _ _).seq_left _

end NumberForm

/-- A number, in the first form that reads one. -/
def Lexeme.numeral? : Recognizer :=
  Recognizer.firstOf <| NumberForm.inOrder.map fun form =>
    .ofMunch form.munch fun spelling => .literal (.number form spelling)

theorem Lexeme.sound_numeral? : Recognizer.Sound numeral? :=
  Recognizer.sound_firstOf <| by
    intro recognizer hmem
    obtain ⟨form, -, rfl⟩ := List.mem_map.1 hmem
    exact Recognizer.sound_ofMunch form.consumes_munch fun _ => rfl

end DeclFront
