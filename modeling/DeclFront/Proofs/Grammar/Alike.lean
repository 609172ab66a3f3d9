import DeclFront.Proofs.Grammar.Prediction
import DeclFront.Proofs.Grammar.Relocation
import DeclFront.Proofs.Grammar.Settled
import DeclFront.Proofs.Printing.Reading

/-!
# Proofs/Grammar/Alike — lists of terminals that the grammar reads alike

Two lists of terminals are *alike* (`AreAlike`) when they have the same tokens and differ in trivia
alone, but not in whether trivia stands between the name of an attribute and a parenthesis.  Read
side by side they are read alike (`Reading.Agree`), rule by rule: the values have the same content,
the causes of failures are the same, and alike terminals are left.  So all that is read of them has
the same content (`content_declarations_eq`).

Only the arguments of attributes hold trivia.  Their content is told by reading their text again,
which gives the tokens of the clause (`ArgumentClause.significant_text`).
-/

namespace DeclFront

open TokenKind

/-! ## Content -/

/-- The kinds of the significant tokens of a text by itself. -/
def TokenKind.significantOfText (text : String) : List TokenKind :=
  (TokenKind.ofText text).filter (!·.isTrivia)

/-- What an attribute says: its name and the tokens of its arguments. -/
structure AttributeContent where
  name : String
  arguments : Option (List TokenKind)
deriving DecidableEq, Repr

/-- What an attribute says: its name and the significant kinds of its arguments. -/
def Attribute.content (a : Attribute) : AttributeContent :=
  ⟨a.name, a.arguments.map significantOfText⟩

/-- What a declaration says, wherever it stands. -/
structure DeclarationContent where
  attributes : List AttributeContent
  access : AccessLevel
  body : DeclarationBody
deriving DecidableEq, Repr

/-- What a declaration says, wherever it stands. -/
def Declaration.content (d : Declaration) : DeclarationContent :=
  ⟨d.attributes.map Attribute.content, d.access, d.body.relocate .forget⟩

/-- What is said in a text, and against it. -/
structure OutcomeContent where
  declarations : List DeclarationContent
  diagnostics : List (Severity × String)
  messages : List String
deriving DecidableEq, Repr

/-- What comes of a file, without ranges. -/
def Outcome.content (outcome : Outcome) : OutcomeContent :=
  ⟨outcome.tree.declarations.map Declaration.content,
    outcome.diagnostics.diagnostics.map fun d => (d.severity, d.message),
    outcome.failures.map Failure.message⟩

namespace Outcome

/-- Diagnostics come in front, without their ranges. -/
theorem content_diagnose (ds : List Diagnostic) (outcome : Outcome) :
    (outcome.diagnose ds).content =
      ⟨outcome.content.declarations,
        ds.map (fun d => (d.severity, d.message)) ++ outcome.content.diagnostics,
        outcome.content.messages⟩ := by
  rw [content, content, diagnose, List.map_append]

theorem content_declare (d : Declaration) (outcome : Outcome) :
    (outcome.declare d).content =
      ⟨d.content :: outcome.content.declarations, outcome.content.diagnostics,
        outcome.content.messages⟩ := rfl

theorem content_fail (failure : Failure) (outcome : Outcome) :
    (outcome.fail failure).content =
      ⟨outcome.content.declarations, outcome.content.diagnostics,
        failure.message :: outcome.content.messages⟩ := rfl

end Outcome

namespace Grammar

/-! ## The text of a clause -/

/-- The terminals are read from a text: they are regular, and their tokens are read back in front of
what follows them there. -/
structure AreRead (ts : List Terminal) : Prop where
  isRegular : ∀ t ∈ ts, t.IsRegular
  legible : ∃ rest, Legible (kinds ts) rest

variable {t u : Terminal} {ts us : List Terminal}

/-- The terminals of a text have been read from it. -/
theorem areRead_of_ofText (path text : String) :
    AreRead (Terminal.ofTokens (TokenStream.ofText path text).tokens) := by
  obtain ⟨hregular, trailing, -, hstream⟩ :=
    Terminal.exists_trailing (TokenStream.ofText path text).tokens
  exact ⟨hregular, _, legible_of_ofText hstream⟩

theorem AreRead.of_append (h : AreRead (ts ++ us)) : AreRead ts ∧ AreRead us := by
  obtain ⟨hregular, rest, hlegible⟩ := h
  rw [List.forall_mem_append] at hregular
  rw [kinds_append, legible_append_iff] at hlegible
  exact ⟨⟨hregular.1, _, hlegible.1⟩, ⟨hregular.2, _, hlegible.2⟩⟩

theorem AreRead.tail (h : AreRead (t :: ts)) : AreRead ts :=
  (show AreRead ([t] ++ ts) from h).of_append.2

/-- The kinds of regular terminals, without their trivia. -/
theorem filter_kinds (h : ∀ t ∈ ts, t.IsRegular) :
    (kinds ts).filter (!·.isTrivia) = ts.map (·.token.kind) := by
  have hsignificant : (Terminal.tokens ts).filter (!·.isTrivia) = ts.map Terminal.token := by
    rw [← Terminal.map_token_ofTokens, Terminal.ofTokens_tokens h]
  rw [kinds, List.filter_map]
  exact (congrArg (List.map Token.kind) hsignificant).trans List.map_map

/-- **Read again, a clause gives its tokens**, invalid ones too. -/
theorem ClauseTree.significant_text {tree : ClauseTree} (h : AreRead (tree.yield ++ ts)) :
    significantOfText tree.text = tree.yield.map (·.token.kind) := by
  obtain ⟨hregular, rest, hlegible⟩ := h.of_append.1
  obtain ⟨inner, hinner⟩ := tree.exists_tokens_eq
  have hsettled : Settled tree.kinds := by
    rw [kinds, hinner, List.map_append, List.map_singleton, tree.closing.kind_eq]
    exact settled_append_closing _
  have hkinds : TokenKind.ofText tree.text = tree.kinds := by
    rw [TokenKind.ofText, ← tree.chars_kinds]
    exact map_kind_ofText "" .first (legible_nil_of_settled hsettled hlegible)
  rw [significantOfText, hkinds]
  exact filter_kinds hregular

/-- **The text of a clause is lexed to the kinds that it was written from.** -/
theorem ArgumentClause.significant_text {clause : ArgumentClause} (hread : AreRead (t :: ts))
    (ht : opensClause t = true) (h : ArgumentClause.read 1 ts = some clause) :
    significantOfText (clause.text t.token) =
      t.token.kind :: (clause.inner.map (·.token.kind) ++ [clause.closing.token.kind]) := by
  obtain ⟨hbalanced, hclosing, rfl⟩ := ArgumentClause.read_one_eq_some_iff.1 h
  obtain ⟨hadjacent, hopening⟩ := Bool.and_eq_true_iff.1 ht
  let tree : ClauseTree :=
    ⟨⟨t, hopening⟩, hadjacent, clause.inner, hbalanced, ⟨clause.closing, hclosing⟩⟩
  have hyield : t :: (clause.inner ++ clause.closing :: clause.rest) =
      tree.yield ++ clause.rest := by simp [ClauseTree.yield, tree]
  rw [hyield] at hread
  have htext : tree.text = clause.text t.token := tree.text_eq clause.rest
  rw [← htext, ClauseTree.significant_text hread]
  simp [ClauseTree.yield, tree]

/-! ## Alike lists -/

/-- Whether a parenthesis is adjacent to the name in front of it, where the terminal is the sign of
an attribute and these two follow. -/
def clauseGap? (sign : Terminal) : List Terminal → Option Bool
  | name :: opening :: _ =>
    if sign.isPunctuator .atSign && name.name?.isSome && opening.isPunctuator .leftParen then
      some opening.isAdjacent
    else none
  | _ => none

/-- The lists have the same tokens, and the same gaps in front of clauses; each is read from a
text. -/
inductive AreAlike : List Terminal → List Terminal → Prop where
  | nil : AreAlike [] []
  | cons {t u : Terminal} {ts us : List Terminal} (token_eq : t.token = u.token)
      (gap_eq : clauseGap? t ts = clauseGap? u us) (left : AreRead (t :: ts))
      (right : AreRead (u :: us)) (tail : AreAlike ts us) : AreAlike (t :: ts) (u :: us)

namespace AreAlike

theorem length_eq (h : AreAlike ts us) : ts.length = us.length := by
  induction h with
  | nil => rfl
  | cons _ _ _ _ _ ih => rw [List.length_cons, List.length_cons, ih]

end AreAlike

section Terminals

variable (h : t.token = u.token)
include h

theorem isPunctuator_congr (p : Punctuator) : t.isPunctuator p = u.isPunctuator p :=
  congrArg (·.kind.isPunctuator p) h

theorem isKeyword_congr (word : String) : t.isKeyword word = u.isKeyword word :=
  congrArg (·.kind.isKeyword word) h

theorem accessLevel?_congr : t.accessLevel? = u.accessLevel? := congrArg (·.kind.accessLevel?) h

theorem range_congr : t.range = u.range := congrArg Token.range h

theorem name?_congr : t.name? = u.name? := by
  rw [Terminal.name?, range_congr h, h, Terminal.name?]

theorem startsDeclaration_congr : t.startsDeclaration = u.startsDeclaration := by
  rw [Terminal.startsDeclaration, isPunctuator_congr h, accessLevel?_congr h, isKeyword_congr h,
    isKeyword_congr h, Terminal.startsDeclaration]

end Terminals

end Grammar

/-! ## Readings of alike lists -/

namespace Reading

open Grammar

variable {α β γ δ : Type} {R : α → β → Prop} {S : γ → δ → Prop} {reading : Reading α}
  {reading' : Reading β} {ts us : List Terminal}

/-- Both readings are done with related values, or have failed for the same cause, and they leave
alike terminals. -/
inductive Agree (R : α → β → Prop) : Reading α → Reading β → Prop where
  | done {a : α} {b : β} {rest rest' : List Terminal} (value : R a b)
      (alike : AreAlike rest rest') : Agree R (.done a rest) (.done b rest')
  | failed (cause : Cause) {rest rest' : List Terminal} (alike : AreAlike rest rest') :
      Agree R (.failed cause rest) (.failed cause rest')

theorem Agree.map {f : α → γ} {g : β → δ} (h : Agree R reading reading')
    (hvalue : ∀ a b, R a b → S (f a) (g b)) : Agree S (reading.map f) (reading'.map g) := by
  cases h with
  | done value alike => exact .done (hvalue _ _ value) alike
  | failed cause alike => exact .failed cause alike

/-- **One rule after another**: readings agree if they agree on what the first leaves. -/
theorem Agree.andThen {rule : α → List Terminal → Reading γ} {rule' : β → List Terminal → Reading δ}
    (h : Agree R reading reading')
    (hrule : ∀ a b rest rest', reading = .done a rest → reading' = .done b rest' → R a b →
      AreAlike rest rest' → Agree S (rule a rest) (rule' b rest')) :
    Agree S (reading.andThen rule) (reading'.andThen rule') := by
  cases h with
  | done value alike => exact hrule _ _ _ _ rfl rfl value alike
  | failed cause alike => exact .failed cause alike

theorem agree_unexpected (wanted : Expectation) (h : AreAlike ts us) :
    Agree R (unexpected wanted ts) (unexpected wanted us) := by
  have hfound : ts.head?.map Terminal.token = us.head?.map Terminal.token := by
    cases h with
    | nil => rfl
    | cons token_eq => exact congrArg some token_eq
  rw [unexpected, unexpected, hfound]
  exact .failed _ h

end Reading

namespace Grammar

open Reading

variable {t u : Terminal} {ts us : List Terminal}

/-! ## Tokens and names -/

/-- A token of a sort is found alike, if the sort does not look at trivia. -/
theorem agree_token (wanted : Expectation) {accepts : Terminal → Bool}
    (haccepts : ∀ t u, t.token = u.token → accepts t = accepts u) (h : AreAlike ts us) :
    Agree Eq (token wanted accepts ts) (token wanted accepts us) := by
  have hunexpected := agree_unexpected (R := Eq (α := Token)) wanted h
  cases h with
  | nil => exact hunexpected
  | @cons t u ts us token_eq _ _ _ tail =>
    rw [token, token, haccepts t u token_eq]
    split
    · exact .done token_eq tail
    · exact hunexpected

theorem agree_name (wanted : Expectation) (h : AreAlike ts us) :
    Agree Eq (name wanted ts) (name wanted us) := by
  have hunexpected := agree_unexpected (R := Eq (α := Name)) wanted h
  cases h with
  | nil => exact hunexpected
  | @cons t u ts us token_eq _ _ _ tail =>
    rw [name, name, name?_congr token_eq]
    split
    · exact .done rfl tail
    · exact hunexpected

/-- As many names are read. -/
theorem agree_furtherNames (separator : Punctuator) (wanted : Expectation) (h : AreAlike ts us) :
    Agree Eq (furtherNames separator wanted ts) (furtherNames separator wanted us) := by
  induction hn : ts.length using Nat.strongRecOn generalizing ts us with
  | _ n ih =>
    subst hn
    cases h with
    | nil => exact .done rfl .nil
    | @cons t u ts us token_eq gap_eq left right tail =>
      have hsame := isPunctuator_congr token_eq separator
      cases ht : t.isPunctuator separator with
      | true =>
        rw [furtherNames_of_separator ht, furtherNames_of_separator (hsame.symm.trans ht)]
        refine (agree_name wanted tail).andThen ?_
        rintro n _ rest rest' hread - rfl hrest
        refine (ih rest.length (Nat.lt_succ_of_lt (length_lt_of_name hread)) hrest rfl).map ?_
        rintro others _ rfl
        rfl
      | false =>
        rw [furtherNames.eq_def, furtherNames.eq_def]
        simp only [← hsame, ht, Bool.false_eq_true, if_false]
        exact .done rfl (.cons token_eq gap_eq left right tail)

theorem agree_names (separator : Punctuator) (wantedFirst wantedNext : Expectation)
    (h : AreAlike ts us) :
    Agree Eq (names separator wantedFirst wantedNext ts)
      (names separator wantedFirst wantedNext us) := by
  refine (agree_name wantedFirst h).andThen ?_
  rintro first _ rest rest' - - rfl hrest
  refine (agree_furtherNames separator wantedNext hrest).map ?_
  rintro others _ rfl
  rfl

/-! ## The head -/

/-- The clauses have the same tokens, and alike terminals behind them. -/
structure ArgumentClause.AreAlike (clause clause' : ArgumentClause) : Prop where
  inner_eq : clause.inner.map Terminal.token = clause'.inner.map Terminal.token
  closing_eq : clause.closing.token = clause'.closing.token
  rest : Grammar.AreAlike clause.rest clause'.rest

/-- **Clauses of alike lists end at the same tokens.** -/
theorem rel_read (h : AreAlike ts us) (depth : Nat) :
    Option.Rel ArgumentClause.AreAlike (ArgumentClause.read depth ts)
      (ArgumentClause.read depth us) := by
  induction h generalizing depth with
  | nil => exact .none
  | @cons t u ts us token_eq gap_eq left right tail ih =>
    have step (d : Nat) : Option.Rel ArgumentClause.AreAlike
        ((ArgumentClause.read d ts).map (.cons t)) ((ArgumentClause.read d us).map (.cons u)) := by
      have hd := ih d
      generalize ArgumentClause.read d ts = clause, ArgumentClause.read d us = clause' at hd ⊢
      cases hd with
      | none => exact .none
      | some h =>
        refine .some ⟨?_, h.closing_eq, h.rest⟩
        simp only [ArgumentClause.cons, List.map_cons, token_eq, h.inner_eq]
    rw [ArgumentClause.read, ArgumentClause.read, ← isPunctuator_congr token_eq,
      ← isPunctuator_congr token_eq]
    split
    · exact step _
    · split
      · split
        · exact .some ⟨rfl, token_eq, tail⟩
        · exact step _
      · exact step _

/-- The same clauses open behind the name of an attribute. -/
theorem opensClause_eq {sign sign' name name' : Terminal}
    (hgap : clauseGap? sign (name :: ts) = clauseGap? sign' (name' :: us)) (h : AreAlike ts us)
    (hsign : sign.isPunctuator .atSign = true) (hname : name.name?.isSome = true)
    (hsign_eq : sign.token = sign'.token) (hname_eq : name.token = name'.token) :
    ts.head?.any opensClause = us.head?.any opensClause := by
  cases h with
  | nil => rfl
  | @cons t u ts us token_eq _ _ _ _ =>
    have hsame := isPunctuator_congr token_eq .leftParen
    rw [List.head?_cons, List.head?_cons, Option.any_some, Option.any_some, opensClause,
      opensClause, ← hsame]
    cases ht : t.isPunctuator .leftParen with
    | true =>
      simp only [clauseGap?, ← isPunctuator_congr hsign_eq, hsign, ← name?_congr hname_eq, hname,
        ← hsame, ht, Bool.and_self, if_true] at hgap
      rw [Option.some.inj hgap]
    | false => rw [Bool.and_false, Bool.and_false]

/-- Where a clause opens alike, the same arguments are read but for their trivia. -/
theorem agree_behindName (sign : Token) (n : Name) (h : AreAlike ts us)
    (hopens : ts.head?.any opensClause = us.head?.any opensClause) :
    Agree (fun a b => a.content = b.content) (behindName sign n ts) (behindName sign n us) := by
  cases h with
  | nil => exact .done rfl .nil
  | @cons t u ts us token_eq gap_eq left right tail =>
    have hu : opensClause t = opensClause u := hopens
    cases ht : opensClause t with
    | false =>
      rw [behindName_of_other ht, behindName_of_other (hu.symm.trans ht)]
      exact .done rfl (.cons token_eq gap_eq left right tail)
    | true =>
      have hu : opensClause u = true := hu.symm.trans ht
      have hrel := rel_read tail 1
      rcases hread : ArgumentClause.read 1 ts with _ | clause <;>
        rcases hread' : ArgumentClause.read 1 us with _ | clause' <;>
        rw [hread, hread'] at hrel <;> cases hrel
      · rw [behindName_of_unclosed ht hread, behindName_of_unclosed hu hread', token_eq]
        exact .failed _ .nil
      · rename_i halike
        rw [behindName_of_clause ht hread, behindName_of_clause hu hread']
        refine .done ?_ halike.rest
        have hinner : clause.inner.map (·.token.kind) = clause'.inner.map (·.token.kind) := by
          have hkinds := congrArg (List.map Token.kind) halike.inner_eq
          rwa [List.map_map, List.map_map] at hkinds
        have htext : significantOfText (clause.text t.token) =
            significantOfText (clause'.text u.token) := by
          rw [clause.significant_text left ht hread, clause'.significant_text right hu hread',
            token_eq, hinner, halike.closing_eq]
        rw [Attribute.content, Attribute.content, Option.map_some, Option.map_some, htext]

theorem agree_attributeAfterSign (h : AreAlike (t :: ts) (u :: us))
    (ht : t.isPunctuator .atSign = true) :
    Agree (fun a b => a.content = b.content) (attributeAfterSign t.token ts)
      (attributeAfterSign u.token us) := by
  cases h with
  | cons token_eq gap_eq left right tail =>
    rw [attributeAfterSign_eq, attributeAfterSign_eq, ← token_eq]
    refine (agree_name _ tail).andThen ?_
    rintro n _ rest rest' hread hread' rfl hrest
    obtain ⟨leaf, rfl, rfl⟩ := name_eq_done_iff.1 hread
    obtain ⟨leaf', rfl, -⟩ := name_eq_done_iff.1 hread'
    cases tail with
    | cons name_eq =>
      refine agree_behindName t.token leaf.name hrest ?_
      exact opensClause_eq gap_eq hrest ht (by rw [leaf.name?_terminal]; rfl) token_eq name_eq

/-- Attributes agree but for the trivia in their arguments. -/
theorem agree_attributes (h : AreAlike ts us) :
    Agree (fun as bs => as.map Attribute.content = bs.map Attribute.content) (attributes ts)
      (attributes us) := by
  induction hn : ts.length using Nat.strongRecOn generalizing ts us with
  | _ n ih =>
    subst hn
    cases h with
    | nil =>
      rw [attributes]
      exact .done rfl .nil
    | @cons t u ts us token_eq gap_eq left right tail =>
      have hsame := isPunctuator_congr token_eq .atSign
      have hwhole := AreAlike.cons token_eq gap_eq left right tail
      cases ht : t.isPunctuator .atSign with
      | true =>
        rw [attributes_of_sign ht, attributes_of_sign (hsame.symm.trans ht),
          ← attributeAfterSign_eq, ← attributeAfterSign_eq]
        refine (agree_attributeAfterSign hwhole ht).andThen ?_
        intro a b rest rest' hread _ hab hrest
        refine (ih rest.length (Nat.lt_succ_of_lt (length_lt_of_attributeAfterSign hread)) hrest
          rfl).map ?_
        intro as bs hmore
        rw [List.map_cons, List.map_cons, hab, hmore]
      | false =>
        rw [attributes_of_other ht, attributes_of_other (hsame.symm.trans ht)]
        exact .done rfl hwhole

theorem agree_behindLevel (level : AccessLevel) (r : Range) (h : AreAlike ts us) :
    Agree Eq (behindLevel level r ts) (behindLevel level r us) := by
  cases h with
  | nil => exact .done rfl .nil
  | @cons t u ts us token_eq gap_eq left right tail =>
    rw [behindLevel, behindLevel, ← isPunctuator_congr token_eq]
    split
    · refine (agree_token _ (fun _ _ h => isKeyword_congr h _) tail).andThen ?_
      rintro _ _ rest rest' - - - hrest
      refine (agree_token _ (fun _ _ h => isPunctuator_congr h _) hrest).map ?_
      rintro close _ rfl
      rfl
    · exact .done rfl (.cons token_eq gap_eq left right tail)

/-- A modifier has no trivia to show, so it is the same. -/
theorem agree_accessModifier (h : AreAlike ts us) :
    Agree Eq (accessModifier ts) (accessModifier us) := by
  cases h with
  | nil => exact .done rfl .nil
  | @cons t u ts us token_eq gap_eq left right tail =>
    have hsame := accessLevel?_congr token_eq
    cases ht : t.accessLevel? with
    | none =>
      rw [accessModifier, accessModifier, ht, ← hsame, ht]
      exact .done rfl (.cons token_eq gap_eq left right tail)
    | some level =>
      have hread {v : Terminal} (hv : v.accessLevel? = some level) (vs : List Terminal) :
          accessModifier (v :: vs) = behindLevel level v.range vs := by
        rw [accessModifier, hv]
        rcases vs with _ | ⟨w, ws⟩ <;> rfl
      rw [hread ht, hread (hsame.symm.trans ht), range_congr token_eq]
      exact agree_behindLevel level u.range tail

/-- The heads have the same content. -/
structure DeclarationHead.Agree (head head' : DeclarationHead) : Prop where
  attributes_eq : head.attributes.map Attribute.content = head'.attributes.map Attribute.content
  modifier_eq : head.modifier = head'.modifier

/-- Heads agree in what they say. -/
theorem agree_declarationHead (h : AreAlike ts us) :
    Agree DeclarationHead.Agree (declarationHead ts) (declarationHead us) := by
  refine (agree_attributes h).andThen ?_
  intro as bs rest rest' _ _ hattributes hrest
  refine (agree_accessModifier hrest).map ?_
  rintro m _ rfl
  exact ⟨hattributes, rfl⟩

/-! ## Bodies -/

theorem agree_enumCase (keyword : Token) (h : AreAlike ts us) :
    Agree Eq (enumCase keyword ts) (enumCase keyword us) := by
  refine (agree_names _ _ _ h).map ?_
  rintro elements _ rfl
  rfl

/-- Bodies are the same, since no clause shows trivia. -/
theorem agree_enumBody (h : AreAlike ts us) : Agree Eq (enumBody ts) (enumBody us) := by
  induction hn : ts.length using Nat.strongRecOn generalizing ts us with
  | _ n ih =>
    subst hn
    have hunexpected := agree_unexpected (R := Eq (α := List EnumCase × Token)) .caseOrClose h
    cases h with
    | nil =>
      rw [enumBody]
      exact hunexpected
    | @cons t u ts us token_eq gap_eq left right tail =>
      have hclose := isPunctuator_congr token_eq .rightBrace
      have hcase := isKeyword_congr token_eq "case"
      have hsemicolon := isPunctuator_congr token_eq .semicolon
      by_cases htclose : t.isPunctuator .rightBrace = true
      · rw [enumBody_of_close htclose, enumBody_of_close (hclose ▸ htclose), token_eq]
        exact .done rfl tail
      by_cases htcase : t.isKeyword "case" = true
      · rw [enumBody_of_case htcase, enumBody_of_case (hcase ▸ htcase), token_eq]
        refine (agree_enumCase u.token tail).andThen ?_
        rintro clause _ rest rest' hread - rfl hrest
        refine (ih rest.length (Nat.lt_succ_of_lt (length_lt_of_enumCase hread)) hrest rfl).map ?_
        rintro body _ rfl
        rfl
      by_cases htsemicolon : t.isPunctuator .semicolon = true
      · rw [enumBody, if_neg htclose, if_neg htcase, if_pos htsemicolon, enumBody,
          if_neg (hclose ▸ htclose), if_neg (hcase ▸ htcase), if_pos (hsemicolon ▸ htsemicolon)]
        exact ih ts.length (Nat.lt_succ_self _) tail rfl
      · rw [enumBody, if_neg htclose, if_neg htcase, if_neg htsemicolon, enumBody,
          if_neg (hclose ▸ htclose), if_neg (hcase ▸ htcase), if_neg (hsemicolon ▸ htsemicolon)]
        exact hunexpected

theorem agree_enumeration (h : AreAlike ts us) : Agree Eq (enumeration ts) (enumeration us) := by
  refine (agree_name _ h).andThen ?_
  rintro n _ rest rest' - - rfl hrest
  refine (agree_token _ (fun _ _ h => isPunctuator_congr h _) hrest).andThen ?_
  rintro _ _ rest rest' - - - hrest
  refine (agree_enumBody hrest).map ?_
  rintro body _ rfl
  rfl

theorem agree_importing (h : AreAlike ts us) : Agree Eq (importing ts) (importing us) := by
  refine (agree_names _ _ _ h).map ?_
  rintro path _ rfl
  rfl

/-! ## Declarations -/

/-- Heads that agree declare the same. -/
theorem DeclarationHead.Agree.content_declare {head head' : DeclarationHead}
    (h : head.Agree head') (keyword keyword' : Terminal) (body : DeclarationBody × Range) :
    (head.declare keyword body).content = (head'.declare keyword' body).content := by
  rw [Declaration.content, Declaration.content, DeclarationHead.declare, DeclarationHead.declare,
    DeclarationHead.access, DeclarationHead.access, h.attributes_eq, h.modifier_eq]

/-- **Declarations agree in what they say.** -/
theorem agree_declarationAfter {head head' : DeclarationHead} (hhead : head.Agree head')
    (h : AreAlike ts us) :
    Agree (fun d e => d.content = e.content) (declarationAfter head ts)
      (declarationAfter head' us) := by
  have hunexpected := agree_unexpected (R := fun d e : Declaration => d.content = e.content)
    .declaration h
  cases h with
  | nil => exact hunexpected
  | @cons t u ts us token_eq _ _ _ tail =>
    rw [declarationAfter, declarationAfter, isKeyword_congr token_eq, isKeyword_congr token_eq]
    split
    · refine (agree_enumeration tail).map ?_
      rintro body _ rfl
      exact hhead.content_declare t u body
    · split
      · refine (agree_importing tail).map ?_
        rintro body _ rfl
        exact hhead.content_declare t u body
      · exact hunexpected

/-- **The same is read of a declaration, and said against it.** -/
theorem agree_declaration (h : AreAlike ts us) :
    (declaration ts).diagnostics = (declaration us).diagnostics ∧
      Agree (fun d e => d.content = e.content) (declaration ts).reading
        (declaration us).reading := by
  have hhead := agree_declarationHead h
  rw [declaration, declaration]
  generalize declarationHead ts = reading, declarationHead us = reading' at hhead ⊢
  cases hhead with
  | done value alike =>
    refine ⟨?_, agree_declarationAfter value alike⟩
    simp only [DeclarationHead.diagnostics, value.modifier_eq]
  | failed cause alike => exact ⟨rfl, .failed cause alike⟩

/-! ## Whole texts -/

/-- Parsing goes on at the same terminal. -/
theorem AreAlike.nextStart (h : AreAlike ts us) (depth : Int) :
    AreAlike (nextStart depth ts) (nextStart depth us) := by
  induction h generalizing depth with
  | nil => exact .nil
  | @cons t u ts us token_eq gap_eq left right tail ih =>
    rw [Grammar.nextStart, Grammar.nextStart, ← isPunctuator_congr token_eq,
      ← isPunctuator_congr token_eq, ← startsDeclaration_congr token_eq]
    split
    · exact ih _
    · split
      · exact ih _
      · split
        · exact .cons token_eq gap_eq left right tail
        · exact ih _

/-- So it does after a failure, since as many terminals have been taken. -/
theorem AreAlike.resume {others others' rest rest' : List Terminal} (hothers : AreAlike others others')
    (hrest : AreAlike rest rest') : AreAlike (resume others rest) (resume others' rest') := by
  rw [Grammar.resume, Grammar.resume, ← hothers.length_eq, ← hrest.length_eq]
  split
  · exact hrest.nextStart 0
  · exact hothers.nextStart 0

/-- **Alike lists have the same content**, declarations, diagnostics and failures alike. -/
theorem content_declarations_eq (stop : Location) (h : AreAlike ts us) :
    (declarations stop ts).content = (declarations stop us).content := by
  induction hn : ts.length using Nat.strongRecOn generalizing ts us with
  | _ n ih =>
    subst hn
    have hattempt := agree_declaration h
    cases h with
    | nil => rfl
    | @cons t u ts us token_eq _ _ _ tail =>
      have hsame := isPunctuator_congr token_eq .semicolon
      cases hs : t.isPunctuator .semicolon with
      | true =>
        rw [declarations_of_semicolon hs, declarations_of_semicolon (hsame.symm.trans hs)]
        exact ih ts.length (Nat.lt_succ_self _) tail rfl
      | false =>
        have hs' := hsame.symm.trans hs
        obtain ⟨hdiagnostics, hreading⟩ := hattempt
        generalize hr : (declaration (t :: ts)).reading = reading,
          hr' : (declaration (u :: us)).reading = reading' at hreading
        cases hreading with
        | done value alike =>
          rw [declarations_of_done hs hr, declarations_of_done hs' hr', hdiagnostics,
            Outcome.content_diagnose, Outcome.content_diagnose, Outcome.content_declare,
            Outcome.content_declare, value, ih _ (length_lt_of_declaration hr) alike rfl]
        | failed cause alike =>
          rw [declarations_of_failed hs hr, declarations_of_failed hs' hr', hdiagnostics,
            Outcome.content_diagnose, Outcome.content_diagnose, Outcome.content_fail,
            Outcome.content_fail,
            ih _ (Nat.lt_succ_of_le (length_resume_le ts _)) (tail.resume alike) rfl]

end Grammar

end DeclFront
