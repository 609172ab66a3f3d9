import DeclFront.Source.Location

/-!
# Source/Range — stretches of a text

A range runs from one location up to, but not including, another of the same text.
-/

namespace DeclFront

/-- A stretch of a text, from `start` up to `stop`. -/
structure Range where
  start : Location
  stop : Location
deriving DecidableEq, Repr

namespace Range

/-- The range of no characters at a location. -/
def empty (l : Location) : Range := ⟨l, l⟩

/-- From the start of one range to the end of another. -/
def through (r s : Range) : Range := ⟨r.start, s.stop⟩

/-- The range as `path[line:column-line:column]`, under the path of its start. -/
def text (r : Range) : String :=
  r.start.path ++ "[" ++ toString r.start.line ++ ":" ++ toString r.start.column ++ "-" ++
    toString r.stop.line ++ ":" ++ toString r.stop.column ++ "]"

end Range

end DeclFront
