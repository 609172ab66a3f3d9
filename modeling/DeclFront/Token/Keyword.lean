/-!
# Token/Keyword — the reserved and the contextual words

`Keyword.all` lists every keyword with its category; `Keyword.ofWord?` looks a whole word up there.
A contextual keyword is special in some places only and is a name everywhere else.
-/

namespace DeclFront

/-- The place where a contextual keyword is special. -/
inductive ContextualKind where
  | accessor
  | associativity
  | mutation
  | modifier
  | operator
  | type
deriving DecidableEq, Repr

namespace ContextualKind

/-- The name of a kind in a dump. -/
def label : ContextualKind → String
  | accessor => "Accessor"
  | associativity => "Associativity"
  | mutation => "Mutation"
  | modifier => "Modifier"
  | operator => "Operator"
  | type => "Type"

end ContextualKind

/-- The part of the language that a keyword belongs to. -/
inductive KeywordCategory where
  | declaration
  | statement
  | expression
  | pattern
  | contextual (kind : ContextualKind)
deriving DecidableEq, Repr

namespace KeywordCategory

/-- The name of a category in a dump. -/
def label : KeywordCategory → String
  | declaration => "Declaration"
  | statement => "Statement"
  | expression => "Expression"
  | pattern => "Pattern"
  | contextual _ => "Contextual"

/-- The kind of a contextual keyword. -/
def contextualKind? : KeywordCategory → Option ContextualKind
  | contextual kind => some kind
  | _ => none

end KeywordCategory

/-- A word with its category. -/
structure Keyword where
  word : String
  category : KeywordCategory
deriving DecidableEq, Repr

namespace Keyword

/-- The words of each category. -/
def table : List (KeywordCategory × List String) :=
  [ (.declaration,
      ["associatedtype", "class", "deinit", "enum", "extension", "fileprivate", "func", "import",
       "init", "inout", "internal", "let", "open", "operator", "private", "protocol", "public",
       "rethrows", "static", "struct", "subscript", "typealias", "var"]),
    (.statement,
      ["break", "case", "continue", "default", "defer", "do", "else", "fallthrough", "for",
       "guard", "if", "in", "repeat", "return", "switch", "where", "while"]),
    (.expression,
      ["as", "Any", "catch", "is", "super", "self", "Self", "throw", "throws", "try"]),
    (.pattern, ["_"]),
    (.contextual .accessor, ["get", "set", "willSet", "didSet"]),
    (.contextual .associativity, ["associativity", "left", "right", "none"]),
    (.contextual .mutation, ["mutating", "nonmutating"]),
    (.contextual .modifier,
      ["convenience", "dynamic", "final", "indirect", "lazy", "optional", "override", "required",
       "unowned", "weak"]),
    (.contextual .operator, ["infix", "postfix", "precedence", "prefix"]),
    (.contextual .type, ["Type", "Protocol"]) ]

/-- Every keyword. -/
def all : List Keyword :=
  table.flatMap fun (category, words) => words.map fun word => ⟨word, category⟩

/-- The keyword spelled by a whole word. -/
def ofWord? (word : String) : Option Keyword :=
  all.find? fun keyword => keyword.word == word

/-- The keyword is reserved only in some places, so it may serve as a name. -/
def isContextual (keyword : Keyword) : Bool := keyword.category.contextualKind?.isSome

/-- A keyword keeps the word that it was looked up by. -/
theorem word_eq_of_ofWord? {word : String} {keyword : Keyword}
    (h : ofWord? word = some keyword) : keyword.word = word := by
  simpa using List.find?_some h

end Keyword

end DeclFront
