/-!
# Unicode/CodeRange — sets of characters given as ranges of code points

A character property is a table of closed ranges in increasing order.
-/

namespace DeclFront.Unicode

/-- The code points from `first` to `last`, both included. -/
abbrev CodeRange := Nat × Nat

/-- Some range of the table holds the character. -/
def within (table : List CodeRange) (c : Char) : Bool :=
  table.any fun r => r.1 ≤ c.toNat && c.toNat ≤ r.2

end DeclFront.Unicode
