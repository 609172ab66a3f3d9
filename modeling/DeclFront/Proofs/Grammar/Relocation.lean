import DeclFront.Grammar.Outcome
import DeclFront.Proofs.Grammar.Terminals

/-!
# Proofs/Grammar/Relocation — parsing does not look at locations

To *relocate* along a map of locations is to move everything that has a range and to change nothing
else.  Each rule of the grammar commutes with it, and so does parsing as a whole
(`declarations_relocate`), for any map at all: ranges are joined at their ends and never compared.
-/

namespace DeclFront

variable (f : Location → Location)

/-! ## What is relocated -/

/-- Both ends of a range are moved. -/
def Range.relocate (r : Range) : Range := ⟨f r.start, f r.stop⟩

/-- A token keeps its kind when it is moved. -/
def Token.relocate (t : Token) : Token := ⟨t.kind, t.range.relocate f⟩

/-- A terminal is moved with the trivia in front of it. -/
def Terminal.relocate (t : Terminal) : Terminal :=
  ⟨t.leading.map (Token.relocate f), t.token.relocate f⟩

/-- A name keeps its text when it is moved. -/
def Name.relocate (n : Name) : Name := ⟨n.text, n.range.relocate f⟩

/-- An attribute keeps its name and arguments when it is moved. -/
def Attribute.relocate (a : Attribute) : Attribute := ⟨a.name, a.arguments, a.range.relocate f⟩

/-- A clause is moved with its elements. -/
def EnumCase.relocate (clause : EnumCase) : EnumCase :=
  ⟨clause.elements.map (Name.relocate f), clause.range.relocate f⟩

/-- The path of an import has no ranges to move. -/
def DeclarationBody.relocate : DeclarationBody → DeclarationBody
  | enumeration name cases => enumeration name (cases.map (EnumCase.relocate f))
  | importing path => importing path

/-- A declaration is moved with its attributes and its body. -/
def Declaration.relocate (d : Declaration) : Declaration :=
  ⟨d.attributes.map (Attribute.relocate f), d.access, d.body.relocate f, d.range.relocate f⟩

/-- A tree is moved declaration by declaration. -/
def SyntaxTree.relocate (tree : SyntaxTree) : SyntaxTree :=
  ⟨tree.declarations.map (Declaration.relocate f)⟩

/-- A diagnostic keeps what it says when it is moved. -/
def Diagnostic.relocate (d : Diagnostic) : Diagnostic :=
  ⟨d.severity, d.message, d.range.relocate f⟩

/-- A cause is moved with the token that it names. -/
def Cause.relocate : Cause → Cause
  | unexpected wanted found => unexpected wanted (found.map (Token.relocate f))
  | unclosedArguments opening => unclosedArguments (opening.relocate f)

/-- A failure is moved with its cause. -/
def Failure.relocate (failure : Failure) : Failure :=
  ⟨failure.cause.relocate f, failure.range.relocate f⟩

/-- Everything that comes of a file, moved. -/
def Outcome.relocate (outcome : Outcome) : Outcome :=
  ⟨outcome.tree.relocate f, ⟨outcome.diagnostics.diagnostics.map (Diagnostic.relocate f)⟩,
    outcome.failures.map (Failure.relocate f)⟩

/-- A reading of a value that `g` relocates. -/
def Reading.relocate {α β : Type} (g : α → β) : Reading α → Reading β
  | done value rest => done (g value) (rest.map (Terminal.relocate f))
  | failed cause rest => failed (cause.relocate f) (rest.map (Terminal.relocate f))

/-! ## What relocation keeps -/

@[simp] theorem Token.spelling_relocate (t : Token) : (t.relocate f).spelling = t.spelling := rfl

@[simp] theorem Token.isTrivia_relocate (t : Token) : (t.relocate f).isTrivia = t.isTrivia := rfl

namespace Terminal

variable (t : Terminal)

@[simp] theorem isPunctuator_relocate (p : Punctuator) :
    (t.relocate f).isPunctuator p = t.isPunctuator p := rfl

@[simp] theorem isKeyword_relocate (word : String) :
    (t.relocate f).isKeyword word = t.isKeyword word := rfl

@[simp] theorem accessLevel?_relocate : (t.relocate f).accessLevel? = t.accessLevel? := rfl

@[simp] theorem startsDeclaration_relocate :
    (t.relocate f).startsDeclaration = t.startsDeclaration := rfl

@[simp] theorem token_relocate : (t.relocate f).token = t.token.relocate f := rfl

@[simp] theorem isAdjacent_relocate : (t.relocate f).isAdjacent = t.isAdjacent := by
  rw [isAdjacent, isAdjacent, relocate, List.isEmpty_map]

@[simp] theorem name?_relocate : (t.relocate f).name? = t.name?.map (Name.relocate f) := by
  rw [name?, name?, Option.map_map]
  rfl

@[simp] theorem spelling_relocate : (t.relocate f).spelling = t.spelling := by
  rw [spelling, spelling, relocate, List.map_map]
  rfl

/-- The terminals of tokens that are relocated. -/
theorem ofTokens_relocate (tokens : List Token) :
    ofTokens (tokens.map (Token.relocate f)) = (ofTokens tokens).map (relocate f) := by
  induction tokens with
  | nil => rfl
  | cons u tokens ih =>
    rw [List.map_cons, ofTokens_cons, ih, ofTokens_cons, prepend.eq_def, prepend.eq_def,
      Token.isTrivia_relocate]
    split
    · rcases ofTokens tokens with _ | ⟨first, others⟩ <;> rfl
    · rfl

end Terminal

/-- The place of a failure moves with its cause, or with the end of the file. -/
theorem Failure.ofCause_relocate (stop : Location) (cause : Cause) :
    ofCause (f stop) (cause.relocate f) = (ofCause stop cause).relocate f := by
  rcases cause with ⟨wanted, _ | t⟩ | opening <;> rfl

namespace Reading

variable {α β γ δ : Type}

theorem map_relocate {g : α → γ} {h : γ → δ} {g' : β → δ} {h' : α → β} (reading : Reading α)
    (hg : ∀ a, h (g a) = g' (h' a)) :
    (reading.relocate f g).map h = (reading.map h').relocate f g' := by
  cases reading with
  | done value rest => rw [relocate, map, hg, map, relocate]
  | failed cause rest => rfl

/-- **One rule after another commutes with moving**, when each does. -/
theorem andThen_relocate {g : α → γ} {h : β → δ} {rule : α → List Terminal → Reading β}
    {rule' : γ → List Terminal → Reading δ} (reading : Reading α)
    (hrule : ∀ a rest,
      rule' (g a) (rest.map (Terminal.relocate f)) = (rule a rest).relocate f h) :
    (reading.relocate f g).andThen rule' = (reading.andThen rule).relocate f h := by
  cases reading with
  | done value rest => exact hrule value rest
  | failed cause rest => rfl

end Reading

namespace Grammar

/-! ## Terminals and names -/

/-- A token of a sort is read alike wherever it stands, if the sort does not look at places. -/
theorem token_relocate (wanted : Expectation) {accepts : Terminal → Bool}
    (haccepts : ∀ t, accepts (t.relocate f) = accepts t) (terminals : List Terminal) :
    token wanted accepts (terminals.map (Terminal.relocate f)) =
      (token wanted accepts terminals).relocate f (Token.relocate f) := by
  rcases terminals with _ | ⟨t, ts⟩
  · rfl
  · rw [List.map_cons, token, token, haccepts]
    split <;> rfl

theorem name_relocate (wanted : Expectation) (terminals : List Terminal) :
    name wanted (terminals.map (Terminal.relocate f)) =
      (name wanted terminals).relocate f (Name.relocate f) := by
  rcases terminals with _ | ⟨t, ts⟩
  · rfl
  · rw [List.map_cons, name, name, Terminal.name?_relocate]
    rcases t.name? with _ | n <;> rfl

/-- Separators and names are found alike, so the list has the same length. -/
theorem furtherNames_relocate (separator : Punctuator) (wanted : Expectation)
    (terminals : List Terminal) :
    furtherNames separator wanted (terminals.map (Terminal.relocate f)) =
      (furtherNames separator wanted terminals).relocate f (List.map (Name.relocate f)) := by
  fun_induction furtherNames separator wanted terminals with
  | case1 => rfl
  | case2 t ht =>
    rw [List.map_cons, furtherNames.eq_def]
    simp only [Terminal.isPunctuator_relocate, ht, if_true]
    rfl
  | case3 t ht u us n hn ih =>
    rw [List.map_cons, List.map_cons, furtherNames.eq_def]
    simp only [Terminal.isPunctuator_relocate, ht, if_true, Terminal.name?_relocate, hn,
      Option.map_some, ih]
    exact Reading.map_relocate f _ fun _ => rfl
  | case4 t ht u us hn =>
    rw [List.map_cons, List.map_cons, furtherNames.eq_def]
    simp only [Terminal.isPunctuator_relocate, ht, if_true, Terminal.name?_relocate, hn,
      Option.map_none]
    rfl
  | case5 t ts ht =>
    rw [List.map_cons, furtherNames.eq_def]
    simp only [Terminal.isPunctuator_relocate, ht]
    rfl

/-- A list of names is moved name by name. -/
def Names.relocate (names : Names) : Names :=
  ⟨names.first.relocate f, names.others.map (Name.relocate f)⟩

theorem Names.toList_relocate (names : Names) :
    (names.relocate f).toList = names.toList.map (Name.relocate f) := rfl

theorem Names.last_relocate (names : Names) : (names.relocate f).last = names.last.relocate f := by
  rw [last, relocate, List.getLast?_map, last]
  rcases names.others.getLast? with _ | n <;> rfl

theorem names_relocate (separator : Punctuator) (wantedFirst wantedNext : Expectation)
    (terminals : List Terminal) :
    names separator wantedFirst wantedNext (terminals.map (Terminal.relocate f)) =
      (names separator wantedFirst wantedNext terminals).relocate f (Names.relocate f) := by
  rw [names, names, name_relocate]
  refine Reading.andThen_relocate f _ fun first rest => ?_
  rw [furtherNames_relocate]
  exact Reading.map_relocate f _ fun _ => rfl

/-! ## The head -/

namespace ArgumentClause

/-- A clause is moved with the terminals left behind it. -/
def relocate (clause : ArgumentClause) : ArgumentClause :=
  ⟨clause.inner.map (Terminal.relocate f), clause.closing.relocate f,
    clause.rest.map (Terminal.relocate f)⟩

/-- A clause closes at the same parenthesis. -/
theorem read_relocate (depth : Nat) (terminals : List Terminal) :
    read depth (terminals.map (Terminal.relocate f)) = (read depth terminals).map (relocate f) := by
  induction terminals generalizing depth with
  | nil => rfl
  | cons t ts ih =>
    have step (d : Nat) : (read d (ts.map (Terminal.relocate f))).map (cons (t.relocate f)) =
        ((read d ts).map (cons t)).map (relocate f) := by
      rw [ih, Option.map_map, Option.map_map]
      rfl
    rw [List.map_cons, read, read, Terminal.isPunctuator_relocate, Terminal.isPunctuator_relocate]
    split
    · exact step _
    · split
      · split
        · rfl
        · exact step _
      · exact step _

/-- Arguments are written out alike. -/
theorem text_relocate (opening : Token) (clause : ArgumentClause) :
    (clause.relocate f).text (opening.relocate f) = clause.text opening := by
  have hinner : (clause.inner.map (Terminal.relocate f)).map Terminal.spelling =
      clause.inner.map Terminal.spelling := by
    rw [List.map_map]
    exact List.map_congr_left fun t _ => t.spelling_relocate f
  rw [text, text, relocate, hinner, Terminal.spelling_relocate, Token.spelling_relocate]

end ArgumentClause

theorem attributeAfterSign_relocate (sign : Token) (terminals : List Terminal) :
    attributeAfterSign (sign.relocate f) (terminals.map (Terminal.relocate f)) =
      (attributeAfterSign sign terminals).relocate f (Attribute.relocate f) := by
  rw [attributeAfterSign, attributeAfterSign, name_relocate]
  refine Reading.andThen_relocate f _ fun n rest => ?_
  rcases rest with _ | ⟨t, ts⟩
  · rfl
  · simp only [List.map_cons, Terminal.isAdjacent_relocate, Terminal.isPunctuator_relocate,
      ArgumentClause.read_relocate]
    split
    · rcases ArgumentClause.read 1 ts with _ | clause
      · rfl
      · simp only [Option.map_some, Terminal.token_relocate, ArgumentClause.text_relocate]
        rfl
    · rfl

/-- As many attributes are read. -/
theorem attributes_relocate (terminals : List Terminal) :
    attributes (terminals.map (Terminal.relocate f)) =
      (attributes terminals).relocate f (List.map (Attribute.relocate f)) := by
  fun_induction attributes terminals with
  | case1 => simp [attributes, Reading.relocate]
  | case2 t ts ht a rest hattribute ih =>
    have hread := attributeAfterSign_relocate f t.token ts
    rw [hattribute] at hread
    have ht' : (t.relocate f).isPunctuator .atSign = true := ht
    rw [List.map_cons]
    refine (attributes_of_done ht' hread).trans ?_
    rw [ih]
    exact Reading.map_relocate f _ fun _ => rfl
  | case3 t ts ht cause rest hattribute =>
    have hread := attributeAfterSign_relocate f t.token ts
    rw [hattribute] at hread
    have ht' : (t.relocate f).isPunctuator .atSign = true := ht
    rw [List.map_cons]
    exact attributes_of_failed ht' hread
  | case4 t ts ht =>
    have ht' : (t.relocate f).isPunctuator .atSign = false := Bool.eq_false_iff.2 ht
    rw [List.map_cons]
    exact attributes_of_other ht'

/-- A modifier keeps its level when it is moved. -/
def AccessModifier.relocate (m : AccessModifier) : AccessModifier :=
  ⟨m.level, m.settersOnly, m.range.relocate f⟩

/-- A modifier is rejected or not wherever it stands; its range is what moves. -/
theorem accessModifier_relocate (terminals : List Terminal) :
    accessModifier (terminals.map (Terminal.relocate f)) =
      (accessModifier terminals).relocate f (Option.map (AccessModifier.relocate f)) := by
  rcases terminals with _ | ⟨t, ts⟩
  · rfl
  rw [List.map_cons, accessModifier, accessModifier, Terminal.accessLevel?_relocate]
  rcases t.accessLevel? with _ | level
  · rfl
  rcases ts with _ | ⟨u, us⟩
  · rfl
  rw [List.map_cons]
  dsimp only
  by_cases hopen : u.isPunctuator .leftParen = true
  · have hopen' : (u.relocate f).isPunctuator .leftParen = true := hopen
    rw [if_pos hopen', if_pos hopen, token_relocate f _ fun _ => rfl]
    refine Reading.andThen_relocate f _ fun _ rest => ?_
    rw [token_relocate f _ fun _ => rfl]
    exact Reading.map_relocate f _ fun _ => rfl
  · have hopen' : ¬ (u.relocate f).isPunctuator .leftParen = true := hopen
    rw [if_neg hopen', if_neg hopen]
    rfl

/-- A head is moved with its attributes and its modifier. -/
def DeclarationHead.relocate (head : DeclarationHead) : DeclarationHead :=
  ⟨head.attributes.map (Attribute.relocate f), head.modifier.map (AccessModifier.relocate f)⟩

theorem declarationHead_relocate (terminals : List Terminal) :
    declarationHead (terminals.map (Terminal.relocate f)) =
      (declarationHead terminals).relocate f (DeclarationHead.relocate f) := by
  rw [declarationHead, declarationHead, attributes_relocate]
  refine Reading.andThen_relocate f _ fun as rest => ?_
  rw [accessModifier_relocate]
  exact Reading.map_relocate f _ fun _ => rfl

/-- What there is to say about a modifier moves with it. -/
theorem DeclarationHead.diagnostics_relocate (head : DeclarationHead) :
    (head.relocate f).diagnostics = head.diagnostics.map (Diagnostic.relocate f) := by
  obtain ⟨as, m⟩ := head
  rcases m with _ | ⟨level, settersOnly, range⟩
  · rfl
  · cases settersOnly <;> rfl

/-! ## Bodies and declarations -/

theorem enumCase_relocate (keyword : Token) (terminals : List Terminal) :
    enumCase (keyword.relocate f) (terminals.map (Terminal.relocate f)) =
      (enumCase keyword terminals).relocate f (EnumCase.relocate f) := by
  rw [enumCase, enumCase, names_relocate]
  refine Reading.map_relocate f _ fun elements => ?_
  rw [Names.last_relocate, Names.toList_relocate]
  rfl

/-- The body closes at the same brace. -/
theorem enumBody_relocate (terminals : List Terminal) :
    enumBody (terminals.map (Terminal.relocate f)) =
      (enumBody terminals).relocate f fun (cases, close) =>
        (cases.map (EnumCase.relocate f), close.relocate f) := by
  fun_induction enumBody terminals with
  | case1 => simp [enumBody, Reading.relocate, Reading.unexpected, Cause.relocate]
  | case2 t ts ht => exact enumBody_of_close ht
  | case3 t ts hclose hcase clause rest hclause ih =>
    have hread := enumCase_relocate f t.token ts
    rw [hclause] at hread
    have hclose' : (t.relocate f).isPunctuator .rightBrace = false := Bool.eq_false_iff.2 hclose
    have hcase' : (t.relocate f).isKeyword "case" = true := hcase
    rw [List.map_cons]
    refine (enumBody_of_done hclose' hcase' hread).trans ?_
    rw [ih]
    exact Reading.map_relocate f _ fun _ => rfl
  | case4 t ts hclose hcase cause rest hclause =>
    have hread := enumCase_relocate f t.token ts
    rw [hclause] at hread
    have hclose' : (t.relocate f).isPunctuator .rightBrace = false := Bool.eq_false_iff.2 hclose
    have hcase' : (t.relocate f).isKeyword "case" = true := hcase
    rw [List.map_cons]
    exact enumBody_of_failed hclose' hcase' hread
  | case5 t ts hclose hcase hsemicolon ih =>
    rw [List.map_cons, enumBody, Terminal.isPunctuator_relocate, if_neg hclose,
      Terminal.isKeyword_relocate, if_neg hcase, Terminal.isPunctuator_relocate, if_pos hsemicolon,
      ih]
  | case6 t ts hclose hcase hsemicolon =>
    rw [List.map_cons, enumBody, Terminal.isPunctuator_relocate, if_neg hclose,
      Terminal.isKeyword_relocate, if_neg hcase, Terminal.isPunctuator_relocate, if_neg hsemicolon]
    rfl

/-- A body with the range of its last token. -/
def relocateBody (body : DeclarationBody × Range) : DeclarationBody × Range :=
  (body.1.relocate f, body.2.relocate f)

theorem enumeration_relocate (terminals : List Terminal) :
    enumeration (terminals.map (Terminal.relocate f)) =
      (enumeration terminals).relocate f (relocateBody f) := by
  rw [enumeration, enumeration, name_relocate]
  refine Reading.andThen_relocate f _ fun n rest => ?_
  rw [token_relocate f _ fun _ => rfl]
  refine Reading.andThen_relocate f _ fun _ rest => ?_
  rw [enumBody_relocate]
  exact Reading.map_relocate f _ fun _ => rfl

theorem importing_relocate (terminals : List Terminal) :
    importing (terminals.map (Terminal.relocate f)) =
      (importing terminals).relocate f (relocateBody f) := by
  rw [importing, importing, names_relocate]
  refine Reading.map_relocate f _ fun path => ?_
  rw [Names.last_relocate, Names.toList_relocate, List.map_map]
  rfl

/-- The range of a declaration goes from its first part to its last, wherever these stand. -/
theorem DeclarationHead.declare_relocate (head : DeclarationHead) (keyword : Terminal)
    (body : DeclarationBody × Range) :
    (head.relocate f).declare (keyword.relocate f) (relocateBody f body) =
      (head.declare keyword body).relocate f := by
  have haccess : (head.relocate f).access = head.access := by
    obtain ⟨as, _ | m⟩ := head <;> rfl
  have hfirst : (head.relocate f).firstRange? = head.firstRange?.map (Range.relocate f) := by
    obtain ⟨_ | ⟨a, as⟩, _ | m⟩ := head <;> rfl
  rw [declare, declare, haccess, hfirst]
  rcases head.firstRange? with _ | r <;> rfl

theorem declarationAfter_relocate (head : DeclarationHead) (terminals : List Terminal) :
    declarationAfter (head.relocate f) (terminals.map (Terminal.relocate f)) =
      (declarationAfter head terminals).relocate f (Declaration.relocate f) := by
  rcases terminals with _ | ⟨t, ts⟩
  · rfl
  rw [List.map_cons, declarationAfter, declarationAfter, Terminal.isKeyword_relocate,
    Terminal.isKeyword_relocate, enumeration_relocate, importing_relocate]
  split
  · exact Reading.map_relocate f _ fun body => head.declare_relocate f t body
  · split
    · exact Reading.map_relocate f _ fun body => head.declare_relocate f t body
    · rfl

/-- **A declaration is read alike wherever it stands**, diagnostics included. -/
theorem declaration_relocate (terminals : List Terminal) :
    declaration (terminals.map (Terminal.relocate f)) =
      ⟨(declaration terminals).diagnostics.map (Diagnostic.relocate f),
        (declaration terminals).reading.relocate f (Declaration.relocate f)⟩ := by
  rw [declaration, declaration, declarationHead_relocate]
  rcases declarationHead terminals with ⟨head, rest⟩ | ⟨cause, rest⟩
  · simp only [Reading.relocate, head.diagnostics_relocate]
    rw [declarationAfter_relocate]
    rfl
  · rfl

/-! ## Whole streams -/

/-- Parsing goes on at the same terminal. -/
theorem nextStart_relocate (depth : Int) (terminals : List Terminal) :
    nextStart depth (terminals.map (Terminal.relocate f)) =
      (nextStart depth terminals).map (Terminal.relocate f) := by
  induction terminals generalizing depth with
  | nil => rfl
  | cons t ts ih =>
    rw [List.map_cons, nextStart, nextStart, Terminal.isPunctuator_relocate,
      Terminal.isPunctuator_relocate, Terminal.startsDeclaration_relocate, ih, ih, ih]
    split
    · rfl
    · split
      · rfl
      · split <;> rfl

theorem resume_relocate (others rest : List Terminal) :
    resume (others.map (Terminal.relocate f)) (rest.map (Terminal.relocate f)) =
      (resume others rest).map (Terminal.relocate f) := by
  rw [resume, resume, List.length_map, List.length_map]
  split <;> exact nextStart_relocate f 0 _

/-- **Parsing does not look at locations**: what is parsed somewhere else is the same, somewhere
else. -/
theorem declarations_relocate (stop : Location) (terminals : List Terminal) :
    declarations (f stop) (terminals.map (Terminal.relocate f)) =
      (declarations stop terminals).relocate f := by
  induction terminals using declarations_induction with
  | nil =>
    simp [declarations, Outcome.empty, Outcome.relocate, SyntaxTree.relocate]
    rfl
  | semicolon t ts hs ih =>
    have hs' : (t.relocate f).isPunctuator .semicolon = true := hs
    rw [List.map_cons, declarations_of_semicolon hs, declarations_of_semicolon hs']
    exact ih
  | done t ts d rest hs hr ih =>
    have hs' : (t.relocate f).isPunctuator .semicolon = false := hs
    have hread := declaration_relocate f (t :: ts)
    have hreading := congrArg DeclarationAttempt.reading hread
    rw [hr] at hreading
    rw [List.map_cons] at hread hreading ⊢
    rw [declarations_of_done hs hr, declarations_of_done hs' hreading, hread, ih]
    simp [Outcome.relocate, Outcome.diagnose, Outcome.declare, SyntaxTree.relocate]
  | failed t ts cause rest hs hr ih =>
    have hs' : (t.relocate f).isPunctuator .semicolon = false := hs
    have hread := declaration_relocate f (t :: ts)
    have hreading := congrArg DeclarationAttempt.reading hread
    rw [hr] at hreading
    rw [List.map_cons] at hread hreading ⊢
    rw [declarations_of_failed hs hr, declarations_of_failed hs' hreading, hread, resume_relocate,
      ih, Failure.ofCause_relocate]
    simp [Outcome.relocate, Outcome.diagnose, Outcome.fail]

end Grammar

end DeclFront
