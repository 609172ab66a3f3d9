import DeclFront.Proofs.Grammar.Alike

/-!
# Proofs/TriviaInsensitive — trivia mean nothing to a parse

Two texts with the same significant tokens are parsed alike: the declarations have the same content,
and the same is said against them and about what could not be read (`content_parse_eq`).  There is
one exception, which the hypothesis names: a parenthesis opens the arguments of an attribute only if
it is adjacent to the name, so the texts have to agree there (`clauseGaps`).

Locations differ between the texts, but parsing does not look at them either
(`declarations_relocate`), so they are forgotten first.
-/

namespace DeclFront

variable (f : Location → Location)

/-! ## Content does not depend on locations -/

/-- Places that are forgotten may have been moved before. -/
theorem EnumCase.forget_relocate (clause : EnumCase) :
    (clause.relocate f).relocate .forget = clause.relocate .forget := by
  rw [relocate, relocate, relocate, List.map_map]
  rfl

theorem DeclarationBody.forget_relocate (body : DeclarationBody) :
    (body.relocate f).relocate .forget = body.relocate .forget := by
  cases body with
  | enumeration name cases =>
    rw [relocate, relocate, relocate, List.map_map]
    exact congrArg _ (List.map_congr_left fun clause _ => clause.forget_relocate f)
  | importing path => rfl

/-- What a declaration says does not depend on where it stands. -/
theorem Declaration.content_relocate (d : Declaration) : (d.relocate f).content = d.content := by
  rw [content, content, relocate, d.body.forget_relocate, List.map_map]
  rfl

/-- The message of a failure does not depend on where it stands. -/
theorem Failure.message_relocate (failure : Failure) :
    (failure.relocate f).message = failure.message := by
  obtain ⟨⟨wanted, _ | t⟩ | opening, range⟩ := failure <;> rfl

/-- **What comes of a file does not depend on where its tokens stand.** -/
theorem Outcome.content_relocate (outcome : Outcome) :
    (outcome.relocate f).content = outcome.content := by
  rw [content, content, relocate, SyntaxTree.relocate, List.map_map, List.map_map, List.map_map]
  congr 1
  · exact List.map_congr_left fun d _ => d.content_relocate f
  · exact List.map_congr_left fun failure _ => failure.message_relocate f

namespace Grammar

/-! ## Locations forgotten -/

variable {ts us : List Terminal}

/-- Whether a clause is adjacent to its name does not depend on where they stand. -/
theorem clauseGap?_relocate (sign : Terminal) (ts : List Terminal) :
    clauseGap? (sign.relocate f) (ts.map (Terminal.relocate f)) = clauseGap? sign ts := by
  rcases ts with _ | ⟨name, _ | ⟨opening, others⟩⟩
  · rfl
  · rfl
  · simp [clauseGap?]

theorem kinds_relocate (ts : List Terminal) : kinds (ts.map (Terminal.relocate f)) = kinds ts := by
  induction ts with
  | nil => rfl
  | cons t ts ih =>
    rw [List.map_cons, kinds_cons, kinds_cons, ih, Terminal.relocate, List.map_map]
    rfl

theorem AreRead.relocate (h : AreRead ts) : AreRead (ts.map (Terminal.relocate f)) where
  isRegular := by
    refine List.forall_mem_map.2 fun t ht => ⟨List.forall_mem_map.2 (h.isRegular t ht).1, ?_⟩
    exact (h.isRegular t ht).2
  legible := by
    rw [kinds_relocate]
    exact h.legible

/-- Whether a parenthesis is adjacent to the name in front of it, at each sign of an attribute that
these two follow. -/
def clauseGaps : List Terminal → List (Option Bool)
  | [] => []
  | t :: ts => clauseGap? t ts :: clauseGaps ts

/-- **Without their locations** terminals of the same kinds are alike, if the same parentheses are
adjacent to the names of attributes. -/
theorem areAlike_forget (hkinds : ts.map (·.token.kind) = us.map (·.token.kind))
    (hgaps : clauseGaps ts = clauseGaps us) (hts : AreRead ts) (hus : AreRead us) :
    AreAlike (ts.map (Terminal.relocate .forget)) (us.map (Terminal.relocate .forget)) := by
  induction ts generalizing us with
  | nil =>
    obtain rfl := List.map_eq_nil_iff.1 hkinds.symm
    exact .nil
  | cons t ts ih =>
    obtain ⟨u, us, rfl, hkind, hkinds'⟩ := List.map_eq_cons_iff.1 hkinds.symm
    obtain ⟨hgap, hgaps'⟩ := List.cons.inj hgaps
    refine .cons ?_ ?_ (hts.relocate _) (hus.relocate _) ?_
    · exact congrArg Token.bare hkind.symm
    · rw [clauseGap?_relocate, clauseGap?_relocate, hgap]
    · exact ih hkinds'.symm hgaps' hts.tail hus.tail

end Grammar

namespace TokenStream

open Grammar

variable {path path' text text' : String}

/-- **Trivia mean nothing to a parse**, but between the name of an attribute and a parenthesis:
texts with the same significant tokens, and the same gaps there, have the same content. -/
theorem content_parse_eq
    (hkinds : (ofText path text).significant.map Token.kind =
      (ofText path' text').significant.map Token.kind)
    (hgaps : clauseGaps (Terminal.ofTokens (ofText path text).tokens) =
      clauseGaps (Terminal.ofTokens (ofText path' text').tokens)) :
    (ofText path text).parse.content = (ofText path' text').parse.content := by
  have hsignificant (s : TokenStream) :
      (Terminal.ofTokens s.tokens).map (·.token.kind) = s.significant.map Token.kind := by
    rw [significant, ← Terminal.map_token_ofTokens, List.map_map]
    rfl
  have halike := areAlike_forget (by rw [hsignificant, hsignificant, hkinds]) hgaps
    (areRead_of_ofText path text) (areRead_of_ofText path' text')
  have hcontent (s : TokenStream) : s.parse.content =
      (declarations (.start "")
        ((Terminal.ofTokens s.tokens).map (Terminal.relocate .forget))).content := by
    rw [← Outcome.content_relocate .forget, parse, ← declarations_relocate]
    rfl
  rw [hcontent, hcontent, content_declarations_eq _ halike]

/-- A clause with blanks and a comment inside, and a body on other lines. -/
theorem content_parse_spread :
    (ofText "p" "@a(b c)enum e\x7b\x7d").significant.map Token.kind =
        (ofText "q" "@a( b/**/c )\nenum e \x7b\n\x7d\n").significant.map Token.kind ∧
      clauseGaps (Terminal.ofTokens (ofText "p" "@a(b c)enum e\x7b\x7d").tokens) =
        clauseGaps (Terminal.ofTokens
          (ofText "q" "@a( b/**/c )\nenum e \x7b\n\x7d\n").tokens) ∧
      (ofText "p" "@a(b c)enum e\x7b\x7d").parse.content =
        (ofText "q" "@a( b/**/c )\nenum e \x7b\n\x7d\n").parse.content := by
  have hkinds : (ofText "p" "@a(b c)enum e\x7b\x7d").significant.map Token.kind =
      (ofText "q" "@a( b/**/c )\nenum e \x7b\n\x7d\n").significant.map Token.kind := by
    decide +kernel
  have hgaps : clauseGaps (Terminal.ofTokens (ofText "p" "@a(b c)enum e\x7b\x7d").tokens) =
      clauseGaps (Terminal.ofTokens
        (ofText "q" "@a( b/**/c )\nenum e \x7b\n\x7d\n").tokens) := by decide +kernel
  exact ⟨hkinds, hgaps, content_parse_eq hkinds hgaps⟩

end TokenStream

end DeclFront
