import DeclFront.Proofs.Grammar.Origin
import DeclFront.Proofs.Grammar.Settled
import DeclFront.Proofs.Printing.Declaration
import DeclFront.Proofs.Tiling

/-!
# Proofs/Printing/RoundTrip — the text description of a parse, parsed again

Whatever text was parsed, the declarations found in it are *printable*
(`isPrintable_of_mem_parse`): they derive from stretches of the text, so their names are ones
that tokens give, and a clause of arguments is read in a description as it was read in the text —
unless it holds an invalid token, which may become part of a valid one in front of other text.

So the text description of a parse gives the parse back, up to ranges, exactly when no name in it is
reserved (`isReread_parse_iff`): a reserved name has lost the backticks that made it one.
-/

namespace DeclFront

open Grammar TokenKind

/-! ## Stretches of a token stream -/

section Stretches

variable {path : String} {p : Position} {text : List Char} {front inner back : List Token}

/-- From one token to another all tokens lie in the range between them. -/
theorem encloses_of_ofText {first last t : Token}
    (h : Token.ofText path p text = front ++ first :: (inner ++ last :: back))
    (ht : t ∈ first :: (inner ++ [last])) : (first.range.through last.range).Encloses t.range := by
  have hends := Token.range_le_range_of_ofText h
  rw [List.mem_cons, List.mem_append, List.mem_singleton] at ht
  rcases ht with rfl | ht | rfl
  · exact ⟨le_rfl, hends.2⟩
  · obtain ⟨before, behind, rfl⟩ := List.append_of_mem ht
    have hfirst : Token.ofText path p text =
        front ++ first :: (before ++ t :: (behind ++ last :: back)) := by rw [h]; simp
    have hlast : Token.ofText path p text =
        (front ++ first :: before) ++ t :: (behind ++ last :: back) := by rw [h]; simp
    exact ⟨(Token.range_le_range_of_ofText hfirst).1, (Token.range_le_range_of_ofText hlast).2⟩
  · exact ⟨hends.1, le_rfl⟩

end Stretches

/-! ## What derives from a text is printable -/

namespace Grammar

variable {path : String} {p : Position} {text : List Char} {front back : List Token}

/-- **A clause without invalid tokens is legible** whatever follows it. -/
theorem ClauseTree.isLegible {clause : ClauseTree} (hregular : ∀ t ∈ clause.yield, t.IsRegular)
    (h : Token.ofText path p text = front ++ (Terminal.tokens clause.yield ++ back))
    (hvalid : ∀ t ∈ Terminal.tokens clause.yield, ∀ text, t.kind ≠ .invalid text) :
    clause.IsLegible := by
  refine ⟨hregular, fun rest => ?_⟩
  obtain ⟨inner, hinner⟩ := clause.exists_tokens_eq
  have hkinds : clause.kinds = inner.map Token.kind ++ [.punctuator .rightParen] := by
    rw [kinds, hinner, List.map_append, List.map_singleton, clause.closing.kind_eq]
  have hthere : Legible clause.kinds (Token.chars back) := by
    rw [← List.append_assoc] at h
    have hall := legible_of_ofText h
    rw [List.map_append] at hall
    exact (legible_append_iff.1 hall).2
  rw [hkinds] at hthere ⊢
  refine legible_closing (fun k hk spelling => ?_) hthere rest
  obtain ⟨t, ht, rfl⟩ := List.mem_map.1 hk
  exact hvalid t (hinner ▸ List.mem_append_left _ ht) spelling

/-- No invalid token lies in the range of the attribute, if it has a clause. -/
def HasValidArguments (tokens : List Token) (a : Attribute) : Prop :=
  a.arguments.isSome = true → ∀ t ∈ tokens, a.range.Encloses t.range →
    ∀ text, t.kind ≠ .invalid text

/-- All tokens of a clause lie in the range of its attribute. -/
theorem AttributeTree.encloses_clause {sign : Mark .atSign} {name : NameLeaf} {clause : ClauseTree}
    (h : Token.ofText path p text =
      front ++ (Terminal.tokens (yield ⟨sign, name, some clause⟩) ++ back)) :
    ∀ t ∈ Terminal.tokens clause.yield,
      (toAttribute ⟨sign, name, some clause⟩).range.Encloses t.range := by
  intro t ht
  obtain ⟨inner, hinner⟩ := clause.exists_tokens_eq
  have hstream : Token.ofText path p text = (front ++ sign.terminal.leading) ++
      sign.terminal.token :: ((name.terminal.leading ++ name.terminal.token :: inner) ++
        clause.closing.terminal.token :: back) := by
    rw [h, yield, Option.map_some, Option.getD_some, Terminal.tokens_cons, Terminal.tokens_cons,
      hinner]
    simp
  rw [toAttribute_of_clause]
  refine encloses_of_ofText hstream (List.mem_cons_of_mem _ ?_)
  rw [hinner, List.mem_append] at ht
  rcases ht with ht | ht
  · exact List.mem_append_left _ (List.mem_append_right _ (List.mem_cons_of_mem _ ht))
  · exact List.mem_append_right _ ht

section Nodes

/-! The names in a text can be written bare, and so can the lists of them. -/

variable (path p text)

/-- A name in a text is one that can be printed. -/
theorem NameLeaf.isName {leaf : NameLeaf}
    (h : leaf.terminal ∈ Terminal.ofTokens (Token.ofText path p text)) :
    IsName leaf.text.toList :=
  isName_of_mem_ofText (Terminal.token_mem_of_mem_ofTokens h) _ leaf.name?_eq

theorem NamesTree.arePrintable {separator : Punctuator} {tree : NamesTree separator}
    (h : ∀ t ∈ tree.yield, t ∈ Terminal.ofTokens (Token.ofText path p text)) :
    ArePrintable (tree.names.map (·.text)) := by
  obtain ⟨first, others⟩ := tree
  rw [yield, List.forall_mem_cons] at h
  refine ⟨List.cons_ne_nil _ _, ?_⟩
  rw [names, List.map_cons, List.forall_mem_cons, List.map_map, List.forall_mem_map]
  refine ⟨NameLeaf.isName path p text h.1, ?_⟩
  rintro ⟨mark, leaf⟩ hmem
  refine NameLeaf.isName path p text (h.2 _ ?_)
  exact List.mem_flatMap.2 ⟨(mark, leaf), hmem, by simp⟩

/-- A body in a text can be printed. -/
theorem BodyTree.isPrintable {tree : BodyTree}
    (h : ∀ t ∈ tree.yield, t ∈ Terminal.ofTokens (Token.ofText path p text)) :
    tree.toBody.IsPrintable := by
  rcases tree with ⟨keyword, name, opening, members, closing⟩ | ⟨keyword, names⟩
  · rw [yield, EnumerationTree.yield, List.forall_mem_cons, List.forall_mem_cons] at h
    refine ⟨NameLeaf.isName path p text h.2.1, fun clause hclause => ?_⟩
    obtain ⟨member, hmember, hcase⟩ := List.mem_filterMap.1 hclause
    rcases member with tree | mark
    · obtain rfl := Option.some.inj hcase
      refine NamesTree.arePrintable path p text fun t ht => h.2.2 t ?_
      refine List.mem_cons_of_mem _ (List.mem_append_left _ ?_)
      exact List.mem_flatMap.2 ⟨_, hmember, List.mem_cons_of_mem _ ht⟩
    · cases hcase
  · rw [yield, ImportTree.yield, List.forall_mem_cons] at h
    exact NamesTree.arePrintable path p text h.2

/-- An attribute in a text can be printed, if its arguments are lexed alike alone. -/
theorem AttributeTree.isPrintable {tree : AttributeTree}
    (h : tree.yield <:+: Terminal.ofTokens (Token.ofText path p text))
    (hvalid : HasValidArguments (Token.ofText path p text) tree.toAttribute) :
    tree.toAttribute.IsPrintable := by
  obtain ⟨sign, name, _ | clause⟩ := tree
  · refine ⟨NameLeaf.isName path p text (h.subset (by simp [yield])), ?_⟩
    rintro _ ⟨⟩
  refine ⟨NameLeaf.isName path p text (h.subset (by simp [yield])), ?_⟩
  rintro _ ⟨⟩
  refine ⟨clause, ?_, rfl⟩
  obtain ⟨hregular, front, back, hstream⟩ := Terminal.exists_eq_of_infix h
  have hclause : Token.ofText path p text =
      front ++ Terminal.tokens [sign.terminal, name.terminal] ++
        (Terminal.tokens clause.yield ++ back) := by
    rw [hstream, List.append_assoc, ← List.append_assoc (Terminal.tokens _),
      ← Terminal.tokens_append]
    rfl
  refine clause.isLegible (fun t ht => hregular t ?_) hclause fun t ht => ?_
  · exact List.mem_cons_of_mem _ (List.mem_cons_of_mem _ ht)
  · refine hvalid rfl t ?_ (encloses_clause hstream t ht)
    rw [hclause]
    exact List.mem_append_right _ (List.mem_append_left _ ht)

/-- **A declaration in a text can be printed**, if its arguments are. -/
theorem DeclarationTree.isPrintable {tree : DeclarationTree}
    (h : tree.yield <:+: Terminal.ofTokens (Token.ofText path p text))
    (hvalid : ∀ a ∈ tree.toDeclaration.attributes,
      HasValidArguments (Token.ofText path p text) a) :
    tree.toDeclaration.IsPrintable := by
  refine ⟨fun a ha => ?_, BodyTree.isPrintable path p text fun t ht => ?_⟩
  · obtain ⟨inner, hinner, rfl⟩ := List.mem_map.1 ha
    refine AttributeTree.isPrintable path p text (List.IsInfix.trans ?_ h) (hvalid _ ha)
    rw [yield, headYield, List.flatMap_def, List.append_assoc]
    exact (List.infix_of_mem_flatten (List.mem_map_of_mem hinner)).trans
      (List.prefix_append _ _).isInfix
  · exact h.subset (List.mem_append_right _ ht)

end Nodes

end Grammar

/-! ## The round trip -/

/-- The trees differ in ranges only. -/
def SyntaxTree.EqUpToRanges (tree other : SyntaxTree) : Prop :=
  tree.relocate .forget = other.relocate .forget

instance (tree other : SyntaxTree) : Decidable (tree.EqUpToRanges other) :=
  inferInstanceAs (Decidable (_ = _))

namespace TokenStream

/-- No clause of arguments in the parse holds an invalid token.  In front of its clause an attribute
has `@`, a name and trivia only, so what lies in its range and is invalid lies in the clause. -/
def HasValidClauses (s : TokenStream) : Prop :=
  ∀ d ∈ s.parse.tree.declarations, ∀ a ∈ d.attributes, HasValidArguments s.tokens a

/-- **The declarations found in a text are printable**, also when others failed. -/
theorem isPrintable_of_mem_parse {path text : String} (h : (ofText path text).HasValidClauses)
    {d : Declaration} (hd : d ∈ (ofText path text).parse.tree.declarations) : d.IsPrintable := by
  obtain ⟨tree, hyield, rfl⟩ := exists_tree_of_mem_declarations hd
  exact tree.isPrintable path .first text.toList hyield (h _ hd)

/-- **The text description of a printable tree** is parsed as the tree, up to ranges, with nothing
to be said against it, or else is not accepted. -/
theorem parse_text_decidedBy {tree : SyntaxTree} (h : ∀ d ∈ tree.declarations, d.IsPrintable)
    (path : String) :
    ((ofText path tree.text).parse.relocate .forget).DecidedBy (∀ n ∈ tree.names, ¬ IsReserved n)
      (tree.relocate .forget).declarations := by
  have hkinds : (Terminal.ofTokens (ofText path tree.text).tokens).map (Terminal.relocate .forget) =
      Terminal.ofKinds tree.kinds := by
    rw [← Terminal.ofTokens_relocate, Terminal.ofKinds, ← tree.map_kind_ofText_text h path,
      List.map_map]
    rfl
  rw [parse, ← declarations_relocate, hkinds]
  exact declarations_ofKinds h

/-- The text description of the tree is parsed without failures, and as the tree up to ranges. -/
def IsReread (path : String) (tree : SyntaxTree) : Prop :=
  (ofText path tree.text).parse.isSuccess = true ∧
    (ofText path tree.text).parse.tree.EqUpToRanges tree

/-- **The text description of a parse gives the parse back exactly when no name in it is
reserved**, and then earns no diagnostics. -/
theorem isReread_parse_iff (path other text : String) (h : (ofText path text).HasValidClauses) :
    (IsReread other (ofText path text).parse.tree ↔
      ∀ n ∈ (ofText path text).parse.tree.names, ¬ IsReserved n) ∧
      (IsReread other (ofText path text).parse.tree →
        (ofText other (ofText path text).parse.tree.text).parse.diagnostics.diagnostics = []) := by
  have hprintable {d : Declaration} (hd : d ∈ (ofText path text).parse.tree.declarations) :
      d.IsPrintable := isPrintable_of_mem_parse h hd
  generalize (ofText path text).parse.tree = tree at hprintable ⊢
  have hdecided := parse_text_decidedBy (fun d => hprintable (d := d)) other
  rw [IsReread]
  generalize (ofText other tree.text).parse = again at hdecided ⊢
  rcases hdecided with ⟨hnames, heq⟩ | ⟨hnames, hfailures⟩
  · obtain ⟨htree, hdiagnostics, hfailures⟩ := Outcome.mk.inj heq
    have hnone : again.diagnostics.diagnostics = [] :=
      List.map_eq_nil_iff.1 (congrArg DiagnosticPool.diagnostics hdiagnostics)
    have hsuccess : again.isSuccess = true := List.isEmpty_iff.2 (List.map_eq_nil_iff.1 hfailures)
    exact ⟨iff_of_true ⟨hsuccess, htree⟩ hnames, fun _ => hnone⟩
  · have hfailed : ¬ again.isSuccess = true := by
      intro hsuccess
      refine hfailures ?_
      rw [Outcome.relocate, List.isEmpty_iff.1 hsuccess, List.map_nil]
    exact ⟨iff_of_false (fun hreread => hfailed hreread.1) hnames,
      fun hreread => absurd hreread.1 hfailed⟩

/-- The declaration in ``@a(b) import `c` ``. -/
def attributedImport : Declaration :=
  let upTo (column : Nat) : Range := ⟨.start "p", ⟨⟨1, column⟩, "p"⟩⟩
  ⟨[⟨"a", some "(b)", upTo 6⟩], .implied, .importing ["c"], upTo 17⟩

/-- An attribute keeps its clause, and a name between backticks stands bare. -/
theorem isReread_attributedImport :
    (ofText "p" "@a(b) import \x60c\x60").HasValidClauses ∧
      (ofText "p" "@a(b) import \x60c\x60").parse.tree = ⟨[attributedImport]⟩ ∧
      IsReread "q" ⟨[attributedImport]⟩ := by
  have hkinds : (ofText "p" "@a(b) import \x60c\x60").tokens.map Token.kind =
      [.punctuator .atSign, .identifier "a", .punctuator .leftParen, .identifier "b",
        .punctuator .rightParen, .control .space, .keyword ⟨"import", .declaration⟩,
        .control .space, .quotedIdentifier "c"] := by
    decide +kernel
  have hvalid : (ofText "p" "@a(b) import \x60c\x60").HasValidClauses := by
    intro d _ a _ _ t ht _ spelling hinvalid
    have hmem := List.mem_map_of_mem (f := Token.kind) ht
    rw [hkinds, hinvalid] at hmem
    simp at hmem
  have htree : (ofText "p" "@a(b) import \x60c\x60").parse.tree = ⟨[attributedImport]⟩ := by
    have hread : (declaration
        (Terminal.ofTokens (ofText "p" "@a(b) import \x60c\x60").tokens)).reading =
          .done attributedImport [] := by
      decide +kernel
    have hsemicolon : (Terminal.ofTokens (ofText "p" "@a(b) import \x60c\x60").tokens).head?.map
        (·.isPunctuator .semicolon) = some false := by
      decide +kernel
    rw [parse]
    generalize Terminal.ofTokens (ofText "p" "@a(b) import \x60c\x60").tokens = terminals at *
    rcases terminals with _ | ⟨t, ts⟩
    · cases hsemicolon
    · rw [declarations_of_done (Option.some.inj hsemicolon) hread, declarations]
      rfl
  have hreread := isReread_parse_iff "p" "q" _ hvalid
  rw [htree] at hreread
  exact ⟨hvalid, htree, hreread.1.2 (by decide)⟩

end TokenStream

end DeclFront
