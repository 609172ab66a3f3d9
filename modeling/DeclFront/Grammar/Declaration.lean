import DeclFront.Grammar.Head

/-!
# Grammar/Declaration — enumerations and imports

    declaration  ::= attribute* access? (enumeration | importing)
    attribute    ::= "@" name arguments?
    access       ::= ("public" | "internal" | "private") ("(" "set" ")")?
    enumeration  ::= "enum" name "{" (case | ";")* "}"
    case         ::= "case" name ("," name)*
    importing    ::= "import" name ("." name)*

A declaration is read from its first terminal to its last without looking back, so what can be said
against its modifier is said even when the declaration fails further on.
-/

namespace DeclFront.Grammar

/-! ## Enumerations -/

/-- A `case` clause whose keyword has been read. -/
def enumCase (keyword : Token) (terminals : List Terminal) : Reading EnumCase :=
  (names .comma .elementName .elementName terminals).map fun elements =>
    ⟨elements.toList, keyword.range.through elements.last.range⟩

theorem length_lt_of_enumCase {keyword : Token} {terminals rest : List Terminal} {clause : EnumCase}
    (h : enumCase keyword terminals = .done clause rest) : rest.length < terminals.length := by
  obtain ⟨elements, helements, -⟩ := Reading.map_eq_done_iff.1 h
  exact length_lt_of_names helements

/-- The body of an enumeration behind its opening brace: the cases and the closing brace. -/
def enumBody : List Terminal → Reading (List EnumCase × Token)
  | [] => .unexpected .caseOrClose []
  | t :: ts =>
    if t.isPunctuator .rightBrace then .done ([], t.token) ts
    else if t.isKeyword "case" then
      match _h : enumCase t.token ts with
      | .done clause rest => (enumBody rest).map fun (cases, close) => (clause :: cases, close)
      | .failed cause rest => .failed cause rest
    else if t.isPunctuator .semicolon then enumBody ts
    else .unexpected .caseOrClose (t :: ts)
termination_by terminals => terminals.length
decreasing_by
  · exact Nat.lt_succ_of_lt (length_lt_of_enumCase _h)
  · exact Nat.lt_succ_self _

/-- The closing brace ends the body. -/
theorem enumBody_of_close {t : Terminal} {ts : List Terminal}
    (ht : t.isPunctuator .rightBrace = true) : enumBody (t :: ts) = .done ([], t.token) ts := by
  simp only [enumBody, ht, if_true]

/-- Behind a clause, others are looked for. -/
theorem enumBody_of_done {t : Terminal} {ts rest : List Terminal} {clause : EnumCase}
    (hclose : t.isPunctuator .rightBrace = false) (hcase : t.isKeyword "case" = true)
    (h : enumCase t.token ts = .done clause rest) :
    enumBody (t :: ts) =
      (enumBody rest).map fun (cases, close) => (clause :: cases, close) := by
  simp only [enumBody, hclose, hcase, Bool.false_eq_true, if_false, if_true]
  split <;> simp_all

theorem enumBody_of_failed {t : Terminal} {ts rest : List Terminal} {cause : Cause}
    (hclose : t.isPunctuator .rightBrace = false) (hcase : t.isKeyword "case" = true)
    (h : enumCase t.token ts = .failed cause rest) : enumBody (t :: ts) = .failed cause rest := by
  simp only [enumBody, hclose, hcase, Bool.false_eq_true, if_false, if_true]
  split <;> simp_all

theorem length_lt_of_enumBody {terminals rest : List Terminal} {body : List EnumCase × Token}
    (h : enumBody terminals = .done body rest) : rest.length < terminals.length := by
  fun_induction enumBody terminals generalizing body with
  | case1 => cases h
  | case2 => cases h; exact Nat.lt_succ_self _
  | case3 t ts _ _ clause middle hclause ih =>
    obtain ⟨inner, hinner, -⟩ := Reading.map_eq_done_iff.1 h
    have := ih hinner
    have := length_lt_of_enumCase hclause
    simp only [List.length_cons]
    omega
  | case4 => cases h
  | case5 t ts _ _ _ ih => exact Nat.lt_succ_of_lt (ih h)
  | case6 => cases h

/-- An enumeration whose keyword has been read, with the range of its last token. -/
def enumeration (terminals : List Terminal) : Reading (DeclarationBody × Range) :=
  (name .enumName terminals).andThen fun name rest =>
    (token .openBrace (·.isPunctuator .leftBrace) rest).andThen fun _ rest =>
      (enumBody rest).map fun (cases, close) => (.enumeration name.text cases, close.range)

/-! ## Imports -/

/-- An import whose keyword has been read, with the range of its last token. -/
def importing (terminals : List Terminal) : Reading (DeclarationBody × Range) :=
  (names .period .importName .pathSegment terminals).map fun path =>
    (.importing (path.toList.map (·.text)), path.last.range)

/-! ## Declarations -/

/-- The declaration that a head, a keyword and a body make. -/
def DeclarationHead.declare (head : DeclarationHead) (keyword : Terminal)
    (body : DeclarationBody × Range) : Declaration :=
  ⟨head.attributes, head.access, body.1, (head.firstRange?.getD keyword.range).through body.2⟩

/-- A declaration whose head has been read. -/
def declarationAfter (head : DeclarationHead) : List Terminal → Reading Declaration
  | [] => .unexpected .declaration []
  | t :: ts =>
    if t.isKeyword "enum" then (enumeration ts).map (head.declare t)
    else if t.isKeyword "import" then (importing ts).map (head.declare t)
    else .unexpected .declaration (t :: ts)

theorem length_lt_of_declarationAfter {head : DeclarationHead} {terminals rest : List Terminal}
    {d : Declaration} (h : declarationAfter head terminals = .done d rest) :
    rest.length < terminals.length := by
  unfold declarationAfter at h
  split at h
  · cases h
  · split at h
    · obtain ⟨body, hbody, -⟩ := Reading.map_eq_done_iff.1 h
      obtain ⟨n, middle, hname, hbody⟩ := Reading.andThen_eq_done_iff.1 hbody
      obtain ⟨brace, inner, hbrace, hbody⟩ := Reading.andThen_eq_done_iff.1 hbody
      obtain ⟨cases, hcases, -⟩ := Reading.map_eq_done_iff.1 hbody
      have := length_lt_of_name hname
      have := length_lt_of_token hbrace
      have := length_lt_of_enumBody hcases
      simp only [List.length_cons]
      omega
    · split at h
      · obtain ⟨body, hbody, -⟩ := Reading.map_eq_done_iff.1 h
        obtain ⟨path, hpath, -⟩ := Reading.map_eq_done_iff.1 hbody
        exact Nat.lt_succ_of_lt (length_lt_of_names hpath)
      · cases h

/-- What comes of reading one declaration: the diagnostics on the way, and the reading. -/
structure DeclarationAttempt where
  diagnostics : List Diagnostic
  reading : Reading Declaration

/-- Reads one declaration. -/
def declaration (terminals : List Terminal) : DeclarationAttempt :=
  match declarationHead terminals with
  | .done head rest => ⟨head.diagnostics, declarationAfter head rest⟩
  | .failed cause rest => ⟨[], .failed cause rest⟩

/-- A declaration that is read has a terminal, so the loop over a file comes to an end. -/
theorem length_lt_of_declaration {terminals rest : List Terminal} {d : Declaration}
    (h : (declaration terminals).reading = .done d rest) : rest.length < terminals.length := by
  unfold declaration at h
  split at h
  · rename_i head middle hhead
    exact Nat.lt_of_lt_of_le (length_lt_of_declarationAfter h) (length_le_of_declarationHead hhead)
  · cases h

end DeclFront.Grammar
