import DeclFront.Proofs.Lexeme.Legible
import DeclFront.Syntax.Declaration

/-!
# Proofs/Printing/Kinds — the tokens of a text description

The text description of a syntax tree is written name by name and mark by mark; `SyntaxTree.kinds`
lists the token kinds so written, and they spell the text (`SyntaxTree.chars_kinds`).  Names stand
bare there, whichever way they were written before.
-/

namespace DeclFront

open TokenKind

/-! ## The names in a tree -/

/-- The names that a `case` clause declares. -/
def EnumCase.names (clause : EnumCase) : List String := clause.elements.map (·.text)

/-- The name of an enumeration and the names in its cases, or the segments of an import path. -/
def DeclarationBody.names : DeclarationBody → List String
  | enumeration name cases => name :: cases.flatMap EnumCase.names
  | importing path => path

/-- The names of the attributes and those in the body. -/
def Declaration.names (d : Declaration) : List String :=
  d.attributes.map Attribute.name ++ d.body.names

/-- The names in all declarations. -/
def SyntaxTree.names (tree : SyntaxTree) : List String :=
  tree.declarations.flatMap Declaration.names

/-! ## The kinds -/

/-- The kinds of the tokens of a text by itself. -/
def TokenKind.ofText (text : String) : List TokenKind :=
  (Token.ofText "" .first text.toList).map Token.kind

/-- Names written bare, with some kinds between each two. -/
def TokenKind.ofNames (gap : List TokenKind) : List String → List TokenKind
  | [] => []
  | n :: ns => ofWord n :: ns.flatMap fun m => gap ++ [ofWord m]

/-- The kinds of an attribute as it is printed; its arguments are lexed again. -/
def Attribute.kinds (a : Attribute) : List TokenKind :=
  .punctuator .atSign :: ofWord a.name :: TokenKind.ofText (a.arguments.getD "")

/-- The kinds of a clause as it is printed. -/
def EnumCase.kinds (clause : EnumCase) : List TokenKind :=
  ofWord "case" :: .control .space :: ofNames [.punctuator .comma, .control .space] clause.names

/-- The kinds of a body as it is printed, with the line ends. -/
def DeclarationBody.kinds : DeclarationBody → List TokenKind
  | enumeration name [] =>
    [ofWord "enum", .control .space, ofWord name, .control .space, .punctuator .leftBrace,
      .punctuator .rightBrace]
  | enumeration name cases =>
    ofWord "enum" :: .control .space :: ofWord name :: .control .space :: .punctuator .leftBrace ::
      .control .lineFeed ::
        (cases.flatMap (fun clause => clause.kinds ++ [.control .lineFeed]) ++
          [.punctuator .rightBrace])
  | importing path => ofWord "import" :: .control .space :: ofNames [.punctuator .period] path

namespace Declaration

/-- The kinds of the attributes and the access level as they are printed. -/
def headKinds (d : Declaration) : List TokenKind :=
  d.attributes.flatMap (fun a => a.kinds ++ [.control .space]) ++
    (if d.access = .implied then [] else [ofWord d.access.text, .control .space])

/-- The kinds of a declaration as it is printed. -/
def kinds (d : Declaration) : List TokenKind := d.headKinds ++ d.body.kinds

end Declaration

/-- The kinds of declarations, each on a line of its own. -/
def SyntaxTree.kinds (tree : SyntaxTree) : List TokenKind :=
  match tree.declarations with
  | [] => []
  | d :: ds => d.kinds ++ ds.flatMap fun e => .control .lineFeed :: e.kinds

/-! ## The kinds spell the text -/

/-- Texts with gaps between them are the first, and then each other behind a gap. -/
theorem toList_intercalate_cons (gap s : String) (ss : List String) :
    (gap.intercalate (s :: ss)).toList =
      s.toList ++ ss.flatMap fun t => gap.toList ++ t.toList := by
  induction ss generalizing s with
  | nil => simp
  | cons t ss ih =>
    rw [String.intercalate_cons_cons, String.toList_append, String.toList_append, ih,
      List.flatMap_cons]
    simp only [List.append_assoc]

namespace TokenKind

@[simp] theorem spelling_punctuator (p : Punctuator) : (punctuator p).spelling = p.spelling := rfl

@[simp] theorem spelling_control (k : Control) :
    (TokenKind.control k).spelling = k.char.toString := rfl

attribute [simp] spelling_ofWord

@[simp] theorem chars_flatMap {α : Type} (f : α → List TokenKind) (xs : List α) :
    chars (xs.flatMap f) = xs.flatMap fun x => chars (f x) := List.flatMap_assoc

@[simp] theorem ofText_empty : TokenKind.ofText "" = [] := by
  rw [TokenKind.ofText, String.toList_empty, Token.ofText_nil, List.map_nil]

@[simp] theorem chars_ofText (text : String) : chars (TokenKind.ofText text) = text.toList := by
  rw [TokenKind.ofText, chars_map_kind, Token.chars_ofText]

/-- Names with separators print as the names with the separator text between them. -/
theorem chars_ofNames (ks : List TokenKind) (gap : String) (hgap : chars ks = gap.toList)
    (ns : List String) : chars (ofNames ks ns) = (gap.intercalate ns).toList := by
  rcases ns with _ | ⟨n, ns⟩
  · rfl
  · rw [ofNames, chars_cons, spelling_ofWord, chars_flatMap, toList_intercalate_cons]
    simp [hgap]

end TokenKind

/-- The kinds of an attribute spell its text; so it is for each part below. -/
theorem Attribute.chars_kinds (a : Attribute) : chars a.kinds = a.text.toList := by
  rw [kinds, text]
  simp [Punctuator.spelling]

theorem EnumCase.chars_kinds (clause : EnumCase) : chars clause.kinds = clause.text.toList := by
  rw [kinds, chars_cons, chars_cons, TokenKind.chars_ofNames _ ", " rfl, names, text]
  simp [Control.char]

theorem DeclarationBody.chars_kinds (body : DeclarationBody) :
    chars body.kinds = body.text.toList := by
  rcases body with ⟨name, _ | ⟨clause, clauses⟩⟩ | path
  · simp [kinds, text, Control.char, Punctuator.spelling]
  · simp [kinds, text, Control.char, Punctuator.spelling, EnumCase.chars_kinds, List.flatMap_map,
      String.toList_join]
  · rw [kinds, chars_cons, chars_cons, TokenKind.chars_ofNames _ "." rfl, text]
    simp [Control.char]

/-- **The kinds of a declaration spell its text.** -/
theorem Declaration.chars_kinds (d : Declaration) : chars d.kinds = d.text.toList := by
  have hattributes : chars (d.attributes.flatMap fun a => a.kinds ++ [.control .space]) =
      (String.join (d.attributes.map (·.text ++ " "))).toList := by
    simp [Control.char, Attribute.chars_kinds, List.flatMap_map, String.toList_join]
  rw [kinds, headKinds, chars_append, chars_append, hattributes, d.body.chars_kinds, text, headText]
  split <;> simp [Control.char]

/-- **The kinds of a tree spell its text.** -/
theorem SyntaxTree.chars_kinds (tree : SyntaxTree) : chars tree.kinds = tree.text.toList := by
  obtain ⟨_ | ⟨d, ds⟩⟩ := tree
  · rfl
  · rw [kinds, text, List.map_cons, toList_intercalate_cons]
    simp [Control.char, Declaration.chars_kinds, List.flatMap_map]

end DeclFront
