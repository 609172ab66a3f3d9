import DeclFront.Diagnostic.Basic
import DeclFront.Grammar.Terminal

/-!
# Proofs/Grammar/Derivation — derivations of the grammar of declarations, as trees

    sentence     ::= (declaration | ";")*
    declaration  ::= attribute* modifier? (enumeration | importing)
    attribute    ::= "@" name clause?
    clause       ::= "(" balanced ")"
    modifier     ::= ("public" | "internal" | "private") ("(" "set" ")")?
    enumeration  ::= "enum" name "{" (case | ";")* "}"
    case         ::= "case" name ("," name)*
    importing    ::= "import" name ("." name)*

A tree has one node for each rule of the grammar that is applied and one leaf for each terminal, and
every leaf carries the proof that its terminal is the one the rule asks for: there are no trees
but derivations.  A terminal list *derives* when it is the `yield` of a tree.  The grammar reads
terminals, not kinds, at one place only: the parenthesis that opens a clause is adjacent to
the name in front of it.

A tree says what it means without a parser: `DeclarationTree.toDeclaration` is the declaration,
whose ranges are the spans of the nodes, and `DeclarationTree.rejection?` the diagnostic that a
modifier with `(set)` earns.
-/

namespace DeclFront.Grammar

/-! ## Leaves -/

/-- A terminal that is the punctuator the grammar asks for. -/
structure Mark (p : Punctuator) where
  terminal : Terminal
  isPunctuator : terminal.isPunctuator p = true

/-- A terminal that is the keyword the grammar asks for. -/
structure Word (word : String) where
  terminal : Terminal
  isKeyword : terminal.isKeyword word = true

/-- A terminal that gives a name. -/
structure NameLeaf where
  terminal : Terminal
  text : String
  name?_eq : terminal.token.kind.name? = some text

/-- A terminal that asks for an access level. -/
structure AccessLeaf where
  terminal : Terminal
  level : AccessLevel
  accessLevel?_eq : terminal.accessLevel? = some level

/-- A punctuator is all there is to the kind of a mark. -/
theorem Mark.kind_eq {p : Punctuator} (mark : Mark p) :
    mark.terminal.token.kind = .punctuator p := by
  have h := mark.isPunctuator
  rwa [Terminal.isPunctuator, TokenKind.isPunctuator, beq_iff_eq] at h

/-- The name, where it is written. -/
def NameLeaf.name (leaf : NameLeaf) : Name := ⟨leaf.text, leaf.terminal.range⟩

/-- From the start of the first terminal to the end of the last. -/
def span (terminals : List Terminal) (h : terminals ≠ []) : Range :=
  (terminals.head h).range.through (terminals.getLast h).range

/-- A span is known from its first and its last terminal. -/
theorem span_eq {terminals : List Terminal} (h : terminals ≠ []) {first last : Terminal}
    (hfirst : terminals.head? = some first) (hlast : terminals.getLast? = some last) :
    span terminals h = first.range.through last.range := by
  rw [List.head?_eq_some_head h] at hfirst
  rw [List.getLast?_eq_some_getLast h] at hlast
  rw [span, Option.some.inj hfirst, Option.some.inj hlast]

/-! ## Lists of names -/

/-- One name or more, with separators between them. -/
structure NamesTree (separator : Punctuator) where
  first : NameLeaf
  others : List (Mark separator × NameLeaf)

/-- The terminals of names that have a separator in front of each. -/
def yieldOthers {separator : Punctuator} (others : List (Mark separator × NameLeaf)) :
    List Terminal := others.flatMap fun (mark, leaf) => [mark.terminal, leaf.terminal]

namespace NamesTree

variable {separator : Punctuator}

/-- The names with the separators between them. -/
def yield (tree : NamesTree separator) : List Terminal :=
  tree.first.terminal :: yieldOthers tree.others

/-- The names in order. -/
def names (tree : NamesTree separator) : List Name :=
  tree.first.name :: tree.others.map fun (_, leaf) => leaf.name

/-- The leaf of the last name. -/
def last (tree : NamesTree separator) : NameLeaf :=
  (tree.others.getLast?.map Prod.snd).getD tree.first

end NamesTree

/-! ## Attributes -/

/-- Every opening parenthesis has the closing one that matches it, and no other closes. -/
inductive Balanced : List Terminal → Prop where
  | nil : Balanced []
  | other {t : Terminal} {ts : List Terminal} (hopen : t.isPunctuator .leftParen = false)
      (hclose : t.isPunctuator .rightParen = false) (hts : Balanced ts) : Balanced (t :: ts)
  | nested {opening closing : Terminal} {inner ts : List Terminal}
      (hopen : opening.isPunctuator .leftParen = true) (hinner : Balanced inner)
      (hclose : closing.isPunctuator .rightParen = true) (hts : Balanced ts) :
      Balanced (opening :: (inner ++ closing :: ts))

/-- The arguments of an attribute: a parenthesis with no trivia in front of it, and what stands up
to the parenthesis that matches it. -/
structure ClauseTree where
  opening : Mark .leftParen
  isAdjacent : opening.terminal.isAdjacent = true
  inner : List Terminal
  balanced : Balanced inner
  closing : Mark .rightParen

namespace ClauseTree

/-- The parentheses and what stands between them. -/
def yield (tree : ClauseTree) : List Terminal :=
  tree.opening.terminal :: (tree.inner ++ [tree.closing.terminal])

/-- The clause as it is written, with the trivia inside. -/
def text (tree : ClauseTree) : String := String.join (tree.yield.map Terminal.spelling)

end ClauseTree

/-- An attribute: its sign, its name, and a clause of arguments if there is one. -/
structure AttributeTree where
  sign : Mark .atSign
  name : NameLeaf
  clause : Option ClauseTree

namespace AttributeTree

/-- The sign and the name, and then the clause. -/
def yield (tree : AttributeTree) : List Terminal :=
  tree.sign.terminal :: tree.name.terminal :: (tree.clause.map ClauseTree.yield).getD []

theorem yield_ne_nil (tree : AttributeTree) : tree.yield ≠ [] := List.cons_ne_nil _ _

/-- The attribute that the tree derives. -/
def toAttribute (tree : AttributeTree) : Attribute :=
  ⟨tree.name.text, tree.clause.map ClauseTree.text, span tree.yield tree.yield_ne_nil⟩

end AttributeTree

/-! ## The access modifier -/

/-- `(set)` behind the keyword of a modifier. -/
structure SetterTree where
  opening : Mark .leftParen
  word : Word "set"
  closing : Mark .rightParen

/-- The word in its parentheses. -/
def SetterTree.yield (tree : SetterTree) : List Terminal :=
  [tree.opening.terminal, tree.word.terminal, tree.closing.terminal]

/-- An access keyword, with `(set)` behind it or without. -/
structure ModifierTree where
  keyword : AccessLeaf
  setter : Option SetterTree

namespace ModifierTree

/-- The keyword, and then `(set)`. -/
def yield (tree : ModifierTree) : List Terminal :=
  tree.keyword.terminal :: (tree.setter.map SetterTree.yield).getD []

theorem yield_ne_nil (tree : ModifierTree) : tree.yield ≠ [] := List.cons_ne_nil _ _

/-- The access level that the modifier gives: the one of its keyword, but none with `(set)`. -/
def access (tree : ModifierTree) : AccessLevel :=
  match tree.setter with
  | none => tree.keyword.level
  | some _ => .implied

/-- What a modifier with `(set)` earns. -/
def rejection? (tree : ModifierTree) : Option Diagnostic :=
  tree.setter.map fun _ =>
    ⟨.error, "'" ++ tree.keyword.level.text ++ "' modifier cannot be applied to this declaration.",
      span tree.yield tree.yield_ne_nil⟩

end ModifierTree

/-! ## Bodies -/

/-- One `case` clause. -/
structure CaseTree where
  keyword : Word "case"
  elements : NamesTree .comma

namespace CaseTree

/-- The keyword, and then the elements. -/
def yield (tree : CaseTree) : List Terminal := tree.keyword.terminal :: tree.elements.yield

theorem yield_ne_nil (tree : CaseTree) : tree.yield ≠ [] := List.cons_ne_nil _ _

/-- The `case` clause that the tree derives. -/
def toEnumCase (tree : CaseTree) : EnumCase :=
  ⟨tree.elements.names, span tree.yield tree.yield_ne_nil⟩

end CaseTree

/-- What stands between the braces of an enumeration: a `case` clause or a semicolon. -/
inductive MemberTree where
  | clause (tree : CaseTree)
  | semicolon (mark : Mark .semicolon)

namespace MemberTree

/-- The terminals of a member of an enumeration. -/
def yield : MemberTree → List Terminal
  | clause tree => tree.yield
  | semicolon mark => [mark.terminal]

/-- The clause that a member gives; a semicolon gives none. -/
def enumCase? : MemberTree → Option EnumCase
  | clause tree => some tree.toEnumCase
  | semicolon _ => none

end MemberTree

/-- An enumeration from its keyword to its closing brace. -/
structure EnumerationTree where
  keyword : Word "enum"
  name : NameLeaf
  opening : Mark .leftBrace
  members : List MemberTree
  closing : Mark .rightBrace

/-- The keyword and the name, and then the members between the braces. -/
def EnumerationTree.yield (tree : EnumerationTree) : List Terminal :=
  tree.keyword.terminal :: tree.name.terminal :: tree.opening.terminal ::
    (tree.members.flatMap MemberTree.yield ++ [tree.closing.terminal])

/-- An import from its keyword to the last segment of its path. -/
structure ImportTree where
  keyword : Word "import"
  path : NamesTree .period

/-- The keyword, and then the path. -/
def ImportTree.yield (tree : ImportTree) : List Terminal :=
  tree.keyword.terminal :: tree.path.yield

/-- What a declaration declares, with the keyword in front. -/
inductive BodyTree where
  | enumeration (tree : EnumerationTree)
  | importing (tree : ImportTree)

namespace BodyTree

/-- The terminals from the keyword of the declaration on. -/
def yield : BodyTree → List Terminal
  | enumeration tree => tree.yield
  | importing tree => tree.yield

/-- The first terminal. -/
def keyword : BodyTree → Terminal
  | enumeration tree => tree.keyword.terminal
  | importing tree => tree.keyword.terminal

/-- The last terminal: the brace that closes an enumeration, the last segment of an import path. -/
def last : BodyTree → Terminal
  | enumeration tree => tree.closing.terminal
  | importing tree => tree.path.last.terminal

/-- The body that the tree derives. -/
def toBody : BodyTree → DeclarationBody
  | enumeration tree => .enumeration tree.name.text (tree.members.filterMap MemberTree.enumCase?)
  | importing tree => .importing (tree.path.names.map (·.text))

theorem yield_ne_nil (tree : BodyTree) : tree.yield ≠ [] := by
  cases tree <;> exact List.cons_ne_nil _ _

end BodyTree

/-! ## Declarations and sentences -/

/-- A declaration: attributes, a modifier, and what is declared. -/
structure DeclarationTree where
  attributes : List AttributeTree
  modifier : Option ModifierTree
  body : BodyTree

namespace DeclarationTree

/-- The terminals in front of the keyword of the declaration. -/
def headYield (tree : DeclarationTree) : List Terminal :=
  tree.attributes.flatMap AttributeTree.yield ++ (tree.modifier.map ModifierTree.yield).getD []

/-- The head, and then the body. -/
def yield (tree : DeclarationTree) : List Terminal := tree.headYield ++ tree.body.yield

theorem yield_ne_nil (tree : DeclarationTree) : tree.yield ≠ [] :=
  List.append_ne_nil_of_right_ne_nil _ tree.body.yield_ne_nil

/-- The access level: what the modifier gives, and the implied one without a modifier. -/
def access (tree : DeclarationTree) : AccessLevel :=
  (tree.modifier.map ModifierTree.access).getD .implied

/-- The declaration that the tree derives. -/
def toDeclaration (tree : DeclarationTree) : Declaration :=
  ⟨tree.attributes.map AttributeTree.toAttribute, tree.access, tree.body.toBody,
    span tree.yield tree.yield_ne_nil⟩

/-- What the modifier earns, if it has `(set)`. -/
def rejection? (tree : DeclarationTree) : Option Diagnostic :=
  tree.modifier.bind ModifierTree.rejection?

end DeclarationTree

/-- A declaration, or a semicolon between declarations. -/
inductive ItemTree where
  | declaration (tree : DeclarationTree)
  | semicolon (mark : Mark .semicolon)

namespace ItemTree

/-- The terminals of an item of a file. -/
def yield : ItemTree → List Terminal
  | declaration tree => tree.yield
  | semicolon mark => [mark.terminal]

/-- The declaration that an item is; a semicolon is none. -/
def declaration? : ItemTree → Option DeclarationTree
  | declaration tree => some tree
  | semicolon _ => none

end ItemTree

/-- A derivation of a whole text: its declarations and the semicolons between them. -/
abbrev Sentence := List ItemTree

namespace Sentence

/-- The terminals of all items, in order. -/
def yield (sentence : Sentence) : List Terminal := sentence.flatMap ItemTree.yield

/-- The derivations of the declarations in order. -/
def trees (sentence : Sentence) : List DeclarationTree := sentence.filterMap ItemTree.declaration?

/-- The declarations in order. -/
def declarations (sentence : Sentence) : List Declaration :=
  sentence.trees.map DeclarationTree.toDeclaration

/-- The diagnostics in order, one for each modifier with `(set)`. -/
def diagnostics (sentence : Sentence) : List Diagnostic :=
  sentence.trees.filterMap DeclarationTree.rejection?

end Sentence

end DeclFront.Grammar
