/-!
# Source/Location — points in a text

A `Position` is a line and a column, both counted from one; columns count UTF-16 code units.
`Position.past` moves a position over one character and `Position.pastAll` over several. A line ends
at a line feed, or at a carriage return that no line feed follows: the pair of them ends one line,
at the line feed.
-/

namespace DeclFront

/-- The number of UTF-16 code units of a character. -/
def utf16Units (c : Char) : Nat := if c.toNat < 0x10000 then 1 else 2

/-- The character `c` ends its line when `next` follows it. -/
def endsLine (c : Char) (next : Option Char) : Bool :=
  c == '\n' || (c == '\r' && next != some '\n')

/-- A place in a text. -/
structure Position where
  line : Nat
  column : Nat
deriving DecidableEq, Repr

namespace Position

/-- Where every text starts. -/
def first : Position := ⟨1, 1⟩

/-- Positions are ordered by line, then by column. -/
instance : LE Position :=
  ⟨fun p q => p.line < q.line ∨ (p.line = q.line ∧ p.column ≤ q.column)⟩

/-- An earlier line, or the same line and an earlier column. -/
instance : LT Position :=
  ⟨fun p q => p.line < q.line ∨ (p.line = q.line ∧ p.column < q.column)⟩

/-- Positions are compared by line first. -/
theorem le_def {p q : Position} :
    p ≤ q ↔ p.line < q.line ∨ (p.line = q.line ∧ p.column ≤ q.column) := Iff.rfl

theorem lt_def {p q : Position} :
    p < q ↔ p.line < q.line ∨ (p.line = q.line ∧ p.column < q.column) := Iff.rfl

instance (p q : Position) : Decidable (p ≤ q) := decidable_of_iff' _ le_def

instance (p q : Position) : Decidable (p < q) := decidable_of_iff' _ lt_def

/-- The position after the character `c`, which `next` follows in the text. -/
def past (p : Position) (c : Char) (next : Option Char) : Position :=
  if endsLine c next then ⟨p.line + 1, 1⟩ else ⟨p.line, p.column + utf16Units c⟩

/-- The position after the characters of a stretch of text that `rest` follows. -/
def pastAll (p : Position) : List Char → (rest : List Char) → Position
  | [], _ => p
  | c :: cs, rest => (p.past c (cs.head?.or rest.head?)).pastAll cs rest

end Position

/-- A position in the text named by `path`. -/
structure Location extends Position where
  path : String
deriving DecidableEq, Repr

namespace Location

/-- Where the text named by `path` starts. -/
def start (path : String) : Location := ⟨.first, path⟩

/-- The location as `path:line:column`. -/
def text (l : Location) : String :=
  l.path ++ ":" ++ toString l.line ++ ":" ++ toString l.column

end Location

end DeclFront
