import DeclFront.Source.Range

/-!
# Syntax/Declaration — declarations and their text

A `Declaration` has attributes, an access level and a body, which is an enumeration or an import;
a `SyntaxTree` lists the declarations of one source text. Each node carries the range from its
first token to its last and has a text description in the grammar of declarations.
-/

namespace DeclFront

/-- Who may use a declaration. -/
inductive AccessLevel where
  /-- As far as the surroundings say: no modifier stands, or one that was rejected. -/
  | implied
  | publicAccess
  | internalAccess
  | privateAccess
deriving DecidableEq, Repr, Inhabited

namespace AccessLevel

/-- The keyword of an access level; an implied one has none. -/
def text : AccessLevel → String
  | implied => ""
  | publicAccess => "public"
  | internalAccess => "internal"
  | privateAccess => "private"

/-- The access level that a keyword stands for. -/
def ofWord? : String → Option AccessLevel
  | "public" => some publicAccess
  | "internal" => some internalAccess
  | "private" => some privateAccess
  | _ => none

/-- An access level prints as the keyword that it was read from. -/
theorem text_of_ofWord? {word : String} {level : AccessLevel} (h : ofWord? word = some level) :
    level.text = word := by
  unfold ofWord? at h
  split at h <;> simp_all <;> subst h <;> rfl

end AccessLevel

/-- An attribute; its arguments stand as they are written, with their parentheses. -/
structure Attribute where
  name : String
  arguments : Option String
  range : Range
deriving DecidableEq, Repr

/-- The name behind its sign, and the arguments as they were written. -/
def Attribute.text (a : Attribute) : String := "@" ++ a.name ++ a.arguments.getD ""

/-- A name where it is written. -/
structure Name where
  text : String
  range : Range
deriving DecidableEq, Repr

/-- One `case` clause. -/
structure EnumCase where
  elements : List Name
  range : Range
deriving DecidableEq, Repr

/-- The elements of a clause behind its keyword. -/
def EnumCase.text (clause : EnumCase) : String :=
  "case " ++ ", ".intercalate (clause.elements.map (·.text))

/-- What a declaration declares. -/
inductive DeclarationBody where
  | enumeration (name : String) (cases : List EnumCase)
  | importing (path : List String)
deriving DecidableEq, Repr

namespace DeclarationBody

/-- The name declared, or the module path with points. -/
def name : DeclarationBody → String
  | enumeration name _ => name
  | importing path => ".".intercalate path

/-- The elements of all cases in order. -/
def elements : DeclarationBody → List Name
  | enumeration _ cases => cases.flatMap (·.elements)
  | importing _ => []

/-- The body on lines of its own; an enumeration without clauses is on one line. -/
def text : DeclarationBody → String
  | enumeration name [] => "enum " ++ name ++ " \x7b\x7d"
  | enumeration name cases =>
    "enum " ++ name ++ " \x7b\n" ++ String.join (cases.map (·.text ++ "\n")) ++ "\x7d"
  | importing path => "import " ++ ".".intercalate path

end DeclarationBody

/-- A declaration of an enumeration or an import. -/
structure Declaration where
  attributes : List Attribute
  access : AccessLevel
  body : DeclarationBody
  range : Range
deriving DecidableEq, Repr

namespace Declaration

/-- The name that a declaration introduces. -/
def name (d : Declaration) : String := d.body.name

/-- The attributes and the access level, each with a blank after it. -/
def headText (d : Declaration) : String :=
  String.join (d.attributes.map (·.text ++ " ")) ++
    (if d.access = .implied then "" else d.access.text ++ " ")

/-- The declaration as it is printed, attributes and access level in front. -/
def text (d : Declaration) : String := d.headText ++ d.body.text

end Declaration

/-- The declarations of one source text. -/
structure SyntaxTree where
  declarations : List Declaration
deriving DecidableEq, Repr

/-- The declarations, one after another on lines of their own. -/
def SyntaxTree.text (tree : SyntaxTree) : String :=
  "\n".intercalate (tree.declarations.map Declaration.text)

end DeclFront
