import DeclFront.Proofs.Grammar.Loop
import DeclFront.Proofs.Grammar.Parentheses
import DeclFront.Proofs.Grammar.Unclosed
import DeclFront.Proofs.Printing.Printable
import DeclFront.Proofs.StandAlone

/-!
# Proofs/AttributeArguments — the arguments of an attribute are kept as they are written

    @ name ( … ) …        arguments: up to the first parenthesis that balances the opening one
    @ name …              no arguments: no parenthesis stands directly behind the name

The rule for attributes reads terminals; what it keeps is a stretch of the text, trivia and all
(`isWritten_of_read`).  Where no parenthesis balances the opening one, the attempt takes all that is
left of the text, so its failure is the last thing that comes of parsing
(`declarations_of_unclosed`).
-/

namespace DeclFront

open Grammar

/-! ## Clauses among the tokens -/

namespace Grammar

variable {stop : Location} {terminals ts rest : List Terminal} {opening closing : Terminal}

/-- The clause that a closing parenthesis ends. -/
theorem isClause_tokens {inner : List Terminal} (hinner : ∀ t ∈ inner, t.IsRegular)
    (hclosing : closing.IsRegular) (hopening : opening.isPunctuator .leftParen = true) :
    IsClause opening.token (Terminal.tokens inner ++ closing.leading) closing.token ↔
      closing.isPunctuator .rightParen = true ∧ ClosesAll 0 (inner.map Terminal.token) := by
  rw [isClause_iff (Mark.kind_eq ⟨opening, hopening⟩),
    Terminal.filter_tokens_append hinner hclosing.1]
  simp [Terminal.isPunctuator, TokenKind.isPunctuator]

/-- **A clause is read where the tokens have one.** -/
theorem exists_read_iff_isClause (hts : ∀ t ∈ ts, t.IsRegular)
    (hopening : opening.isPunctuator .leftParen = true) :
    (∃ clause, ArgumentClause.read 1 ts = some clause) ↔
      ∃ inner closing back, Terminal.tokens ts = inner ++ closing :: back ∧
        IsClause opening.token inner closing := by
  constructor
  · rintro ⟨clause, hread⟩
    obtain ⟨hcloses, hclosing, rfl⟩ := ArgumentClause.closesAll_of_read hread
    refine ⟨Terminal.tokens clause.inner ++ clause.closing.leading, clause.closing.token,
      Terminal.tokens clause.rest, ?_, ?_⟩
    · rw [Terminal.tokens_append, Terminal.tokens_cons, List.append_assoc]
    · exact (isClause_tokens (fun t ht => hts t (List.mem_append_left _ ht))
        (hts _ (List.mem_append_right _ List.mem_cons_self)) hopening).2 ⟨hclosing, hcloses⟩
  · rintro ⟨inner, closing, back, htokens, hclause⟩
    obtain ⟨hregular, trivia, htrivia, hinner⟩ := Terminal.exists_trailing inner
    have hclosing : Terminal.IsRegular ⟨trivia, closing⟩ := by
      refine ⟨htrivia, ?_⟩
      rw [Token.isTrivia, hclause.closing_kind]
      rfl
    have hsplit : ts = Terminal.ofTokens inner ++ ⟨trivia, closing⟩ :: Terminal.ofTokens back := by
      rw [← Terminal.ofTokens_tokens hts, htokens, hinner, List.append_assoc,
        Terminal.ofTokens_tokens_append hregular,
        Terminal.ofTokens_leading_append back htrivia hclosing.2, ← hinner]
    rw [hinner] at hclause
    obtain ⟨hparen, hcloses⟩ := (isClause_tokens hregular hclosing hopening).1 hclause
    exact ⟨_, by rw [hsplit]; exact ArgumentClause.read_of_closesAll hcloses hparen⟩

/-- A clause opens where a parenthesis stands directly behind what is in front. -/
theorem begins_opensClause_iff {trailing : List Token} (hts : ∀ t ∈ ts, t.IsRegular)
    (htrailing : ∀ t ∈ trailing, t.isTrivia = true) :
    Begins opensClause ts ↔ ∃ opening ∈ (Terminal.tokens ts ++ trailing).head?,
      opening.kind = .punctuator .leftParen := by
  have htrivia {t : Token} (ht : t.isTrivia = true) : t.kind ≠ .punctuator .leftParen := by
    intro hkind
    rw [Token.isTrivia, hkind] at ht
    cases ht
  rcases ts with _ | ⟨u, us⟩
  · refine iff_of_false (not_begins_nil _) ?_
    rintro ⟨t, ht, hkind⟩
    exact htrivia (htrailing t (List.mem_of_mem_head? ht)) hkind
  rw [begins_cons_iff, opensClause, Terminal.isAdjacent, Terminal.tokens_cons]
  cases hleading : u.leading with
  | nil => simp [Terminal.isPunctuator, TokenKind.isPunctuator]
  | cons t trivia =>
    have ht := htrivia ((hts u List.mem_cons_self).1 t (by rw [hleading]; exact List.mem_cons_self))
    simp [ht]

/-- A name and the parenthesis directly behind it are read as an attribute if the parenthesis is
closed. -/
theorem exists_done_iff_exists_read (sign : Token) (name : NameLeaf)
    (hopens : opensClause opening = true) :
    (∃ a rest, attributeAfterSign sign (name.terminal :: opening :: ts) = .done a rest) ↔
      ∃ clause, ArgumentClause.read 1 ts = some clause := by
  have hbehind : attributeAfterSign sign (name.terminal :: opening :: ts) =
      behindName sign name.name (opening :: ts) := by
    rw [attributeAfterSign_eq, name_eq_done_iff.2 ⟨name, rfl, rfl⟩]
    rfl
  rw [hbehind]
  cases hread : ArgumentClause.read 1 ts with
  | none => simp [behindName_of_unclosed hopens hread]
  | some clause => simp [behindName_of_clause hopens hread]

/-! ## Where attributes are read -/

/-- Attributes are read one behind the other, each behind its sign. -/
theorem exists_sign_of_mem_attributes {as : List Attribute} {a : Attribute}
    (h : attributes terminals = .done as rest) (ha : a ∈ as) :
    ∃ sign ts behind, sign :: ts <:+ terminals ∧ sign.isPunctuator .atSign = true ∧
      attributeAfterSign sign.token ts = .done a behind := by
  fun_induction attributes terminals generalizing as with
  | case1 => cases h; cases ha
  | case2 t ts ht b middle hread ih =>
    obtain ⟨others, hothers, rfl⟩ := Reading.map_eq_done_iff.1 h
    rcases List.mem_cons.1 ha with rfl | ha
    · exact ⟨t, ts, middle, List.suffix_rfl, ht, hread⟩
    · obtain ⟨sign, us, behind, hsuffix, hsign, hattribute⟩ := ih hothers ha
      have hmiddle := attributeAfterSign_rest_suffix t.token ts
      rw [hread] at hmiddle
      exact ⟨sign, us, behind, (hsuffix.trans hmiddle).trans (List.suffix_cons t ts), hsign,
        hattribute⟩
  | case3 => cases h
  | case4 => cases h; cases ha

/-- The attributes of a declaration are those that it begins with. -/
theorem exists_attributes_of_declaration {d : Declaration}
    (h : (declaration terminals).reading = .done d rest) :
    ∃ middle, attributes terminals = .done d.attributes middle := by
  rw [reading_declaration] at h
  obtain ⟨head, behind, hhead, hafter⟩ := Reading.andThen_eq_done_iff.1 h
  obtain ⟨as, middle, hattributes, hmodifier⟩ := Reading.andThen_eq_done_iff.1 hhead
  obtain ⟨modifier, -, rfl⟩ := Reading.map_eq_done_iff.1 hmodifier
  obtain ⟨body, -, rfl, -⟩ := (declarationAfter_eq_done_iff _).1 hafter
  exact ⟨middle, hattributes⟩

/-- **Every attribute of a parse was read behind its sign.** -/
theorem exists_sign_of_mem_declarations {d : Declaration} {a : Attribute}
    (hd : d ∈ (declarations stop terminals).tree.declarations) (ha : a ∈ d.attributes) :
    ∃ sign ts behind, sign :: ts <:+ terminals ∧ sign.isPunctuator .atSign = true ∧
      attributeAfterSign sign.token ts = .done a behind := by
  obtain ⟨added, t, ts, rest, h, hread⟩ := exists_done_of_mem_declarations hd
  obtain ⟨middle, hattributes⟩ := exists_attributes_of_declaration hread
  obtain ⟨sign, us, behind, hsuffix, hsign, hattribute⟩ :=
    exists_sign_of_mem_attributes hattributes ha
  exact ⟨sign, us, behind, hsuffix.trans h.suffix, hsign, hattribute⟩

/-! ## A clause without an end -/

/-- **An attribute that is not closed is the last thing that comes of parsing.** -/
theorem declarations_of_unclosed (trees : List AttributeTree) (tree : UnclosedAttribute) :
    declarations stop (trees.flatMap AttributeTree.yield ++ tree.yield) =
      ⟨⟨[]⟩, ∅,
        [⟨.unclosedArguments tree.opening.terminal.token, tree.opening.terminal.range⟩]⟩ := by
  obtain ⟨t, ts, hts, ht⟩ := tree.begins_atSign trees
  have hdeclaration := declaration_of_unclosed trees tree
  rw [hts] at hdeclaration ⊢
  have hresume : resume ts [] = [] := by
    rw [resume, if_pos (by simp), nextStart]
  rw [declarations_of_failed (isPunctuator_of_ne ht (by decide))
    (congrArg DeclarationAttempt.reading hdeclaration), hdeclaration, hresume, declarations]
  rfl

end Grammar

/-! ## Attributes as they are written -/

/-- The attribute is what is written at the sign and the name, which `behind` follows in a text. -/
structure Attribute.IsVerbatim (a : Attribute) (text : String) (sign name : Token)
    (behind : List Token) : Prop where
  name_eq : name.kind.name? = some a.name
  /-- There are arguments just when a parenthesis stands directly behind the name. -/
  isSome_iff : a.arguments.isSome = true ↔
    ∃ opening ∈ behind.head?, opening.kind = .punctuator .leftParen
  range_of_none : a.arguments = none → a.range = sign.range.through name.range
  /-- The arguments are the slice of the text that the clause covers. -/
  isClause_of_some : ∀ arguments ∈ a.arguments, ∃ opening inner closing back,
    behind = opening :: (inner ++ closing :: back) ∧ IsClause opening inner closing ∧
      arguments = (opening.range.through closing.range).slice text ∧
        a.range = sign.range.through closing.range

namespace Grammar

variable {path text : String} {front trailing : List Token} {rest : List Terminal}

/-- The text of a clause is what its tokens spell. -/
theorem ClauseTree.toList_text (clause : ClauseTree) :
    clause.text.toList = Token.chars (Terminal.tokens clause.yield) := by
  rw [← clause.chars_kinds, ClauseTree.kinds, TokenKind.chars_map_kind]

/-- What is derived as a clause is one among the tokens. -/
theorem ClauseTree.isClause (clause : ClauseTree) (h : ∀ t ∈ clause.yield, t.IsRegular) :
    IsClause clause.opening.terminal.token
      (Terminal.tokens clause.inner ++ clause.closing.terminal.leading)
      clause.closing.terminal.token := by
  have hinner : ∀ t ∈ clause.inner, t.IsRegular := fun t ht => h t (by simp [yield, ht])
  have hclosing : clause.closing.terminal.IsRegular := h _ (by simp [yield])
  exact (isClause_tokens hinner hclosing clause.opening.isPunctuator).2
    ⟨clause.closing.isPunctuator, clause.closesAll⟩

/-- **An attribute that is derived is written so in the text**, if its tokens stand there. -/
theorem AttributeTree.isVerbatim_toAttribute (tree : AttributeTree)
    (hends : tree.EndsBefore rest)
    (hregular : ∀ t ∈ (tree.clause.map ClauseTree.yield).getD [] ++ rest, t.IsRegular)
    (htrailing : ∀ t ∈ trailing, t.isTrivia = true)
    (htext : Token.ofText path .first text.toList = front ++
      (Terminal.tokens ((tree.clause.map ClauseTree.yield).getD [] ++ rest) ++ trailing)) :
    tree.toAttribute.IsVerbatim text tree.sign.terminal.token tree.name.terminal.token
      (Terminal.tokens ((tree.clause.map ClauseTree.yield).getD [] ++ rest) ++ trailing) := by
  obtain ⟨sign, name, _ | clause⟩ := tree
  · refine ⟨name.name?_eq, ?_, fun _ => rfl,
      fun arguments h => absurd h (Option.not_mem_none arguments)⟩
    rw [← begins_opensClause_iff hregular htrailing]
    exact iff_of_false (by simp [toAttribute]) (hends rfl)
  · have hclause := clause.isClause fun t ht => hregular t (List.mem_append_left rest ht)
    have htokens := clause.tokens_yield
    rw [toAttribute_of_clause]
    rw [Option.map_some, Option.getD_some, Terminal.tokens_append, List.append_assoc] at htext ⊢
    have hslice := Token.slice_of_ofText htext (by rw [htokens]; rfl)
      (by rw [htokens, List.getLast?_concat])
    refine ⟨name.name?_eq, ?_, fun h => (Option.some_ne_none _ h).elim, ?_⟩
    · rw [htokens]
      exact iff_of_true rfl ⟨_, rfl, clause.opening.kind_eq⟩
    · rintro arguments harguments
      obtain rfl := Option.some.inj harguments
      refine ⟨_, _, _, Terminal.tokens rest ++ trailing, ?_, hclause, ?_, rfl⟩
      · rw [htokens]
        simp
      · rw [hslice, ← clause.toList_text, String.ofList_toList]

end Grammar

namespace TokenStream

/-- The attribute is what is written at the sign, a token of the stream: a name behind it, perhaps
with trivia in front, and the clause directly behind the name. -/
def IsWritten (s : TokenStream) (text : String) (sign : Token) (a : Attribute) : Prop :=
  ∃ front blanks name behind, s.tokens = front ++ sign :: (blanks ++ name :: behind) ∧
    (∀ t ∈ blanks, t.isTrivia = true) ∧ a.IsVerbatim text sign name behind

/-- The stream of a text keeps the arguments of attributes as they are written. -/
structure KeepsArguments (s : TokenStream) (text : String) : Prop where
  /-- An attribute that is read, also in a declaration that fails, is written so. -/
  isWritten_of_done : ∀ sign ts a rest, sign :: ts <:+ Terminal.ofTokens s.tokens →
    sign.isPunctuator .atSign = true → attributeAfterSign sign.token ts = .done a rest →
      s.IsWritten text sign.token a
  /-- So is every attribute of the parse. -/
  isWritten_of_mem : ∀ d ∈ s.parse.tree.declarations, ∀ a ∈ d.attributes,
    ∃ sign, sign.kind = .punctuator .atSign ∧ s.IsWritten text sign a
  /-- An attribute whose clause opens is read just when some parenthesis closes the clause. -/
  done_iff_isClause : ∀ (sign : Terminal) (name : NameLeaf) opening ts,
    sign :: name.terminal :: opening :: ts <:+ Terminal.ofTokens s.tokens →
      opensClause opening = true →
        ((∃ a rest, attributeAfterSign sign.token (name.terminal :: opening :: ts) = .done a rest) ↔
          ∃ inner closing back, Terminal.tokens ts = inner ++ closing :: back ∧
            IsClause opening.token inner closing)
  /-- If none does, the attempt at the declaration fails at the parenthesis that opens the clause,
  and nothing more comes of the rest of the stream. -/
  parse_of_not_isClause : ∀ added (trees : List AttributeTree) (sign : Mark .atSign)
    (name : NameLeaf) opening ts,
    Reaches s.stop (Terminal.ofTokens s.tokens) added (trees.flatMap AttributeTree.yield ++
        sign.terminal :: name.terminal :: opening :: ts) →
      opensClause opening = true →
        (∀ inner closing back, Terminal.tokens ts = inner ++ closing :: back →
          ¬ IsClause opening.token inner closing) →
          (declaration (trees.flatMap AttributeTree.yield ++
              sign.terminal :: name.terminal :: opening :: ts)).reading =
            .failed (.unclosedArguments opening.token) [] ∧
          s.parse = added.followedBy
            ⟨⟨[]⟩, ∅, [⟨.unclosedArguments opening.token, opening.range⟩]⟩

variable {path text : String} {sign : Terminal} {ts rest : List Terminal}

/-- **The arguments that an attribute has read are written in the text.** -/
theorem isWritten_of_read {a : Attribute}
    (hsuffix : sign :: ts <:+ Terminal.ofTokens (ofText path text).tokens)
    (hsign : sign.isPunctuator .atSign = true)
    (hread : attributeAfterSign sign.token ts = .done a rest) :
    (ofText path text).IsWritten text sign.token a := by
  obtain ⟨tree, htree, hyield, rfl, hends⟩ :=
    (attributeAfterSign_eq_done_iff ⟨sign, hsign⟩).1 hread
  obtain rfl : tree.sign.terminal = sign := congrArg Mark.terminal htree
  obtain ⟨hregular, trailing, htrailing, htokens⟩ :=
    Terminal.exists_trailing (ofText path text).tokens
  obtain ⟨before, hbefore⟩ := hsuffix
  rw [← hbefore, hyield] at hregular htokens
  rw [AttributeTree.yield, List.cons_append, List.cons_append] at hregular htokens
  let behind := (tree.clause.map ClauseTree.yield).getD [] ++ rest
  have hbehind : ∀ t ∈ behind, t.IsRegular := fun t ht => hregular t (List.mem_append_right _
    (List.mem_cons_of_mem _ (List.mem_cons_of_mem _ ht)))
  have hname : tree.name.terminal.IsRegular := hregular _ (List.mem_append_right _
    (List.mem_cons_of_mem _ List.mem_cons_self))
  rw [Terminal.tokens_append, Terminal.tokens_cons, Terminal.tokens_cons] at htokens
  refine ⟨Terminal.tokens before ++ tree.sign.terminal.leading, tree.name.terminal.leading,
    tree.name.terminal.token, Terminal.tokens behind ++ trailing, ?_, hname.1, ?_⟩
  · rw [htokens]
    simp [behind]
  · have htext : Token.ofText path .first text.toList =
        (Terminal.tokens before ++ tree.sign.terminal.leading ++
          tree.sign.terminal.token :: (tree.name.terminal.leading ++ [tree.name.terminal.token])) ++
            (Terminal.tokens behind ++ trailing) := htokens.trans (by simp [behind])
    exact tree.isVerbatim_toAttribute hends hbehind htrailing htext

/-- **The arguments of attributes are kept as they are written**, in every text. -/
theorem keepsArguments_ofText (path text : String) : (ofText path text).KeepsArguments text where
  isWritten_of_done _ _ _ _ := isWritten_of_read
  isWritten_of_mem d hd a ha := by
    obtain ⟨sign, ts, behind, hsuffix, hsign, hread⟩ := exists_sign_of_mem_declarations hd ha
    exact ⟨sign.token, Mark.kind_eq ⟨sign, hsign⟩, isWritten_of_read hsuffix hsign hread⟩
  done_iff_isClause sign name opening ts hsuffix hopens := by
    obtain ⟨hregular, -⟩ := Terminal.exists_trailing (ofText path text).tokens
    have hts : ∀ t ∈ ts, t.IsRegular := fun t ht => hregular t (hsuffix.subset
      (List.mem_cons_of_mem _ (List.mem_cons_of_mem _ (List.mem_cons_of_mem _ ht))))
    rw [exists_done_iff_exists_read sign.token name hopens,
      exists_read_iff_isClause hts (Bool.and_eq_true_iff.1 hopens).2]
  parse_of_not_isClause added trees sign name opening ts hreaches hopens hnone := by
    obtain ⟨hadjacent, hopening⟩ := Bool.and_eq_true_iff.1 hopens
    obtain ⟨hregular, -⟩ := Terminal.exists_trailing (ofText path text).tokens
    have hts : ∀ t ∈ ts, t.IsRegular := fun t ht =>
      hregular t (hreaches.suffix.subset (by simp [ht]))
    have hnothing : ArgumentClause.read 1 ts = none := by
      by_contra hsome
      obtain ⟨inner, closing, back, htokens, hclause⟩ := (exists_read_iff_isClause hts hopening).1
        (Option.ne_none_iff_exists'.1 hsome)
      exact hnone inner closing back htokens hclause
    let tree : UnclosedAttribute := ⟨sign, name, ⟨opening, hopening⟩, hadjacent, ts,
      ArgumentClause.read_one_eq_none_iff.1 hnothing⟩
    have hread := congrArg DeclarationAttempt.reading (declaration_of_unclosed trees tree)
    refine ⟨hread, hreaches.declarations_eq.trans ?_⟩
    exact congrArg added.followedBy (declarations_of_unclosed trees tree)

end TokenStream

end DeclFront
