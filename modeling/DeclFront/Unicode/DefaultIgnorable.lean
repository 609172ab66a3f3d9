import DeclFront.Unicode.CodeRange

/-!
# Unicode/DefaultIgnorable — the characters of Unicode 17.0 that show nothing by themselves

A character is ignorable by default when it has the property *Default_Ignorable_Code_Point*: joiners,
variation selectors, fillers. Most of them are format characters or combine with others; the Hangul
fillers are letters, and this property alone tells that they are blank. No ASCII character has it.
-/

namespace DeclFront.Unicode

/-- The code points with the property *Default_Ignorable_Code_Point*. -/
def defaultIgnorableRanges : List CodeRange :=
  [
    (0xAD, 0xAD), (0x34F, 0x34F), (0x61C, 0x61C), (0x115F, 0x1160), (0x17B4, 0x17B5),
    (0x180B, 0x180F), (0x200B, 0x200F), (0x202A, 0x202E), (0x2060, 0x206F), (0x3164, 0x3164),
    (0xFE00, 0xFE0F), (0xFEFF, 0xFEFF), (0xFFA0, 0xFFA0), (0xFFF0, 0xFFF8), (0x1BCA0, 0x1BCA3),
    (0x1D173, 0x1D17A), (0xE0000, 0xE0FFF)
  ]

/-- The property *Default_Ignorable_Code_Point*. -/
def isDefaultIgnorable (c : Char) : Bool :=
  !(c.toNat < 128) && within defaultIgnorableRanges c

end DeclFront.Unicode
