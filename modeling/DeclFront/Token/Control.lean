/-!
# Token/Control — blanks and line ends, one token each
-/

namespace DeclFront

/-- A blank or a line end. -/
inductive Control where
  | lineFeed
  | carriageReturn
  | horizontalTab
  | formFeed
  | null
  | space
deriving DecidableEq, Repr

namespace Control

/-- The character that a control token is. -/
def char : Control → Char
  | lineFeed => '\n'
  | carriageReturn => '\r'
  | horizontalTab => '\t'
  | formFeed => '\x0c'
  | null => '\x00'
  | space => ' '

/-- The name of a control character in a dump. -/
def label : Control → String
  | lineFeed => "LineFeed"
  | carriageReturn => "CarriageReturn"
  | horizontalTab => "HorizontalTab"
  | formFeed => "FormFeed"
  | null => "Null"
  | space => "Space"

/-- The control token that a character makes, if it makes one. -/
def ofChar? : Char → Option Control
  | '\n' => some lineFeed
  | '\r' => some carriageReturn
  | '\t' => some horizontalTab
  | '\x0c' => some formFeed
  | '\x00' => some null
  | ' ' => some space
  | _ => none

/-- Every control token is read from its own character. -/
theorem ofChar?_char (control : Control) : ofChar? control.char = some control := by
  cases control <;> rfl

/-- A control token is the character that it was read from. -/
theorem char_eq_of_ofChar? {c : Char} {control : Control} (h : ofChar? c = some control) :
    control.char = c := by
  unfold ofChar? at h
  split at h <;> simp_all <;> subst h <;> rfl

end Control

end DeclFront
