import DeclFront.Proofs.Grammar.Language
import DeclFront.Proofs.Grammar.Origin
import DeclFront.Proofs.Grammar.Spans

/-!
# Proofs/Ranges — the ranges of a syntax tree

Every declaration of a parse, failing or not, is read from a *block* of its own: the tokens from the
first to the last terminal that its tree yields.  The blocks stand one behind the other, and the
ranges in a declaration are read off its block (`exists_blocks_parse`): each runs from the start of
the first token of its node to the end of the last one, so the nodes lie inside one another as the
grammar has them.

The ranges that the rules join run forward wherever a rule is applied, also in a declaration that
fails further on (`joinsForward_ofText`).
-/

namespace DeclFront

open Grammar

/-! ## Blocks -/

/-- The blocks stand in a list of tokens one behind the other, with anything around them. -/
def AreBlocksOf : (blocks : List (List Token)) → (tokens : List Token) → Prop
  | [], _ => True
  | block :: blocks, tokens =>
    ∃ front back, tokens = front ++ (block ++ back) ∧ AreBlocksOf blocks back

theorem AreBlocksOf.append_left {blocks : List (List Token)} {tokens : List Token}
    (h : AreBlocksOf blocks tokens) (before : List Token) :
    AreBlocksOf blocks (before ++ tokens) := by
  rcases blocks with _ | ⟨block, blocks⟩
  · exact trivial
  · obtain ⟨front, back, rfl, hblocks⟩ := h
    exact ⟨before ++ front, back, (List.append_assoc _ _ _).symm, hblocks⟩

/-! ## The first and the last terminal of a node -/

namespace Grammar

/-- The names in order. -/
def NamesTree.leaves {separator : Punctuator} (tree : NamesTree separator) : List NameLeaf :=
  tree.first :: tree.others.map Prod.snd

namespace AttributeTree

/-- The parenthesis that closes the arguments, or the name. -/
def last (tree : AttributeTree) : Terminal :=
  (tree.clause.map (·.closing.terminal)).getD tree.name.terminal

/-- An attribute ends with its closing parenthesis or its name. -/
theorem getLast?_yield (tree : AttributeTree) : tree.yield.getLast? = some tree.last := by
  obtain ⟨sign, name, _ | clause⟩ := tree
  · rfl
  · simp [yield, last, ClauseTree.yield, List.getLast?_cons]

end AttributeTree

/-- The tree of the clause that a member is. -/
def MemberTree.case? : MemberTree → Option CaseTree
  | clause tree => some tree
  | semicolon _ => none

/-- The trees of the clauses in a body; an import has none. -/
def BodyTree.cases : BodyTree → List CaseTree
  | enumeration tree => tree.members.filterMap MemberTree.case?
  | importing _ => []

namespace DeclarationTree

/-- The first `@`, or else the keyword of the modifier, or else that of the body. -/
def first (tree : DeclarationTree) : Terminal :=
  ((tree.attributes.head?.map (·.sign.terminal)).or
    (tree.modifier.map (·.keyword.terminal))).getD tree.body.keyword

/-- A declaration begins with its first attribute, its modifier or its keyword. -/
theorem head?_yield (tree : DeclarationTree) : tree.yield.head? = some tree.first := by
  obtain ⟨_ | ⟨first, others⟩, _ | modifier, body⟩ := tree
  · exact body.head?_yield
  · rfl
  · rfl
  · rfl

theorem getLast?_yield (tree : DeclarationTree) : tree.yield.getLast? = some tree.body.last := by
  rw [yield, List.getLast?_append, tree.body.getLast?_yield, Option.some_or]

/-- The tokens are those that the declaration derives, with nothing behind the last. -/
structure DerivesBlock (tree : DeclarationTree) (block : List Token) : Prop where
  derives : Sentence.Derives [.declaration tree] block
  find?_eq : block.find? (!·.isTrivia) = some tree.first.token
  getLast?_eq : block.getLast? = some tree.body.last.token

/-- A declaration derives the block of its tokens. -/
theorem derivesBlock {tree : DeclarationTree} (h : ∀ t ∈ tree.yield, t.IsRegular) :
    tree.DerivesBlock (Terminal.tokens tree.yield) := by
  have hyield := Terminal.ofTokens_tokens h
  constructor
  · exact Sentence.derives_iff.2 ((List.append_nil _).trans hyield.symm)
  · have hfilter := Terminal.map_token_ofTokens (Terminal.tokens tree.yield)
    rw [← List.head?_filter, ← hfilter, hyield, List.head?_map, tree.head?_yield, Option.map_some]
  · rw [Terminal.getLast?_tokens, tree.getLast?_yield, Option.map_some]

end DeclarationTree

/-- The blocks of the declarations that are read stand one behind the other. -/
theorem areBlocksOf_stretches (stretches : List Stretch) (trailing : List Token) :
    AreBlocksOf ((stretches.filterMap Stretch.tree?).map fun tree => Terminal.tokens tree.yield)
      (Terminal.tokens (stretches.flatMap Stretch.yield) ++ trailing) := by
  induction stretches with
  | nil => exact trivial
  | cons stretch stretches ih =>
    rw [List.flatMap_cons, Terminal.tokens_append, List.append_assoc]
    rcases stretch with (tree | mark) | attempt
    · exact ⟨[], _, rfl, ih⟩
    · exact ih.append_left _
    · exact ih.append_left _

end Grammar

/-! ## Exact ranges -/

/-- The `case` clauses of an enumeration. -/
def DeclarationBody.cases : DeclarationBody → List EnumCase
  | enumeration _ cases => cases
  | importing _ => []

namespace Declaration

/-- Each range in the declaration runs from the first terminal of its node to the last. -/
structure IsExact (d : Declaration) (tree : DeclarationTree) : Prop where
  range : d.range = tree.first.range.through tree.body.last.range
  attributes : d.attributes.map (·.range) =
    tree.attributes.map fun a => a.sign.terminal.range.through a.last.range
  cases : d.body.cases.map (·.range) =
    tree.body.cases.map fun c => c.keyword.terminal.range.through c.elements.last.terminal.range
  elements : d.body.cases.map (·.elements.map (·.range)) =
    tree.body.cases.map (·.elements.leaves.map (·.terminal.range))

/-- The attributes and then the cases lie inside the declaration in order, and so do the elements
inside their case. -/
structure IsNested (d : Declaration) : Prop where
  parts : d.range.HoldsInOrder (d.attributes.map (·.range) ++ d.body.cases.map (·.range))
  elements : ∀ clause ∈ d.body.cases, clause.range.HoldsInOrder (clause.elements.map (·.range))

end Declaration

namespace Grammar

/-- A tree and what it declares have the same clauses. -/
theorem BodyTree.cases_toBody (tree : BodyTree) :
    tree.toBody.cases = tree.cases.map CaseTree.toEnumCase := by
  rcases tree with tree | tree
  · change tree.members.filterMap MemberTree.enumCase? =
      (tree.members.filterMap MemberTree.case?).map CaseTree.toEnumCase
    rw [List.map_filterMap]
    congr 1
    funext member
    cases member <;> rfl
  · rfl

/-- The clauses stand in the body, in order. -/
theorem BodyTree.flatMap_cases_sublist (tree : BodyTree) :
    (tree.cases.flatMap CaseTree.yield).Sublist tree.yield := by
  have hmembers (members : List MemberTree) :
      ((members.filterMap MemberTree.case?).flatMap CaseTree.yield).Sublist
        (members.flatMap MemberTree.yield) := by
    induction members with
    | nil => exact List.Sublist.refl _
    | cons member members ih =>
      rw [List.flatMap_cons]
      rcases member with tree | mark
      · exact (List.append_sublist_append_left tree.yield).2 ih
      · exact ih.trans (List.sublist_append_right _ _)
  rcases tree with tree | tree
  · refine (hmembers tree.members).trans ?_
    exact ((List.sublist_append_left _ [tree.closing.terminal]).cons _).cons _ |>.cons _
  · exact List.nil_sublist _

theorem NamesTree.names_eq {separator : Punctuator} (tree : NamesTree separator) :
    tree.names = tree.leaves.map NameLeaf.name := by
  rw [names, leaves, List.map_cons, List.map_map]
  rfl

/-- The names stand in their list, in order. -/
theorem NamesTree.leaves_sublist {separator : Punctuator} (tree : NamesTree separator) :
    (tree.leaves.map NameLeaf.terminal).Sublist tree.yield := by
  have hothers (others : List (Mark separator × NameLeaf)) :
      ((others.map Prod.snd).map NameLeaf.terminal).Sublist (yieldOthers others) := by
    induction others with
    | nil => exact List.Sublist.refl _
    | cons other others ih => exact (ih.cons_cons _).cons _
  exact (hothers tree.others).cons_cons _

namespace DeclarationTree

/-- **The ranges of a declaration are exact.** -/
theorem isExact_toDeclaration (tree : DeclarationTree) : tree.toDeclaration.IsExact tree where
  range := span_eq _ tree.head?_yield tree.getLast?_yield
  attributes := by
    rw [toDeclaration, List.map_map]
    exact List.map_congr_left fun a _ => span_eq _ rfl a.getLast?_yield
  cases := by
    rw [toDeclaration, tree.body.cases_toBody, List.map_map]
    exact List.map_congr_left fun c _ => span_eq _ rfl c.getLast?_yield
  elements := by
    rw [toDeclaration, tree.body.cases_toBody, List.map_map]
    refine List.map_congr_left fun c _ => ?_
    change c.elements.names.map (·.range) = c.elements.leaves.map (·.terminal.range)
    rw [c.elements.names_eq, List.map_map]
    rfl

/-- **The nodes of a declaration lie inside one another in order.** -/
theorem isNested_toDeclaration {tree : DeclarationTree} (h : InOrder tree.yield) :
    tree.toDeclaration.IsNested where
  parts := by
    rw [toDeclaration, tree.body.cases_toBody, List.map_map, List.map_map]
    have hparts : ((tree.attributes.flatMap AttributeTree.yield) ++
        tree.body.cases.flatMap CaseTree.yield).Sublist tree.yield :=
      (List.sublist_append_left _ _).append tree.body.flatMap_cases_sublist
    have hholds := h.holdsInOrder tree.yield_ne_nil
      (tree.attributes.map (fun a => ⟨a.yield, a.yield_ne_nil⟩) ++
        tree.body.cases.map fun c => ⟨c.yield, c.yield_ne_nil⟩)
      (by rwa [List.flatMap_append, List.flatMap_map, List.flatMap_map])
    rwa [List.map_append, List.map_map, List.map_map] at hholds
  elements := by
    rw [toDeclaration, tree.body.cases_toBody, List.forall_mem_map]
    intro c hc
    have hyield : c.yield.Sublist tree.yield := by
      refine List.Sublist.trans ?_
        (tree.body.flatMap_cases_sublist.trans (List.sublist_append_right _ _))
      rw [List.flatMap_def]
      exact List.sublist_flatten_of_mem (List.mem_map_of_mem hc)
    have hholds := (h.sublist hyield).holdsInOrder c.yield_ne_nil
      (c.elements.leaves.map fun leaf => ⟨[leaf.terminal], List.cons_ne_nil _ _⟩)
      (by
        rw [List.flatMap_map, ← List.map_eq_flatMap]
        exact c.elements.leaves_sublist.cons _)
    rw [List.map_map] at hholds
    change Range.HoldsInOrder _ (c.elements.names.map (·.range))
    rwa [c.elements.names_eq, List.map_map]

end DeclarationTree

end Grammar

/-! ## Joined ranges -/

namespace TokenStream

/-- The ranges that are joined in reading and parsing the stream run forward: those of the tokens,
and those that a rule of the grammar joins, wherever in the stream the rule is applied. -/
structure JoinsForward (s : TokenStream) : Prop where
  token_isForward : ∀ t ∈ s.tokens, t.range.IsForward
  clause_isForward : ∀ t ts clause, t :: ts <:+ Terminal.ofTokens s.tokens →
    ArgumentClause.read 1 ts = some clause → (t.range.through clause.closing.range).IsForward
  attribute_isForward : ∀ t ts a rest, t :: ts <:+ Terminal.ofTokens s.tokens →
    t.isPunctuator .atSign = true → attributeAfterSign t.token ts = .done a rest →
      a.range.IsForward
  modifier_isForward : ∀ ts m rest, ts <:+ Terminal.ofTokens s.tokens →
    accessModifier ts = .done (some m) rest → m.range.IsForward
  enumCase_isForward : ∀ t ts clause rest, t :: ts <:+ Terminal.ofTokens s.tokens →
    t.isKeyword "case" = true → enumCase t.token ts = .done clause rest → clause.range.IsForward
  declaration_isForward : ∀ ts d rest, ts <:+ Terminal.ofTokens s.tokens →
    (declaration ts).reading = .done d rest → d.range.IsForward

/-- **No range is joined that ends before its start.** -/
theorem joinsForward_ofText (path text : String) : (ofText path text).JoinsForward := by
  have hspan {ts front rest : List Terminal}
      (hts : ts <:+ Terminal.ofTokens (ofText path text).tokens)
      (heq : ts = front ++ rest) (hfront : front ≠ []) : (span front hfront).IsForward := by
    have hsub : front.Sublist (Terminal.ofTokens (ofText path text).tokens) := by
      refine List.Sublist.trans ?_ hts.sublist
      rw [heq]
      exact List.sublist_append_left _ _
    exact (((inOrder_ofText path .first text.toList).sublist hsub).start_lt_stop_span hfront).le
  constructor
  case token_isForward => exact fun t ht => (Token.start_lt_stop_of_mem_ofText ht).le
  case clause_isForward =>
    intro t ts clause hts hread
    obtain ⟨-, -, rfl⟩ := ArgumentClause.read_one_eq_some_iff.1 hread
    have heq : t :: (clause.inner ++ clause.closing :: clause.rest) =
        (t :: (clause.inner ++ [clause.closing])) ++ clause.rest := by simp
    have hforward := hspan hts heq (List.cons_ne_nil _ _)
    have hlast : (t :: (clause.inner ++ [clause.closing])).getLast? = some clause.closing := by
      simp [List.getLast?_cons]
    rwa [span_eq _ rfl hlast] at hforward
  case attribute_isForward =>
    intro t ts a rest hts hsign hread
    obtain ⟨tree, -, hyield, rfl, -⟩ := (attributeAfterSign_eq_done_iff ⟨t, hsign⟩).1 hread
    exact hspan hts hyield tree.yield_ne_nil
  case modifier_isForward =>
    intro ts m rest hts hread
    obtain ⟨_ | tree, hyield, hm, -⟩ := accessModifier_eq_done_iff.1 hread
    · cases hm
    · obtain rfl := Option.some.inj hm
      exact hspan hts hyield tree.yield_ne_nil
  case enumCase_isForward =>
    intro t ts clause rest hts hkeyword hread
    obtain ⟨tree, -, hyield, rfl, -⟩ := (enumCase_eq_done_iff ⟨t, hkeyword⟩).1 hread
    exact hspan hts hyield tree.yield_ne_nil
  case declaration_isForward =>
    intro ts d rest hts hread
    obtain ⟨tree, hyield, rfl, -⟩ := exists_tree_of_declaration hread
    exact hspan hts hyield tree.yield_ne_nil

/-! ## Whole parses -/

/-- **The ranges of every parse are exact**, failing or not: its declarations are read from blocks
of tokens one behind the other, each range in a declaration runs from the first token of its node to
the last, the nodes lie inside one another in order, and no range is joined that ends before its
start. -/
theorem exists_blocks_parse (path text : String) :
    (∃ readings : List (DeclarationTree × List Token),
      (ofText path text).parse.tree.declarations =
          readings.map (fun reading => reading.1.toDeclaration) ∧
        AreBlocksOf (readings.map Prod.snd) (ofText path text).tokens ∧
          ∀ reading ∈ readings, reading.1.DerivesBlock reading.2 ∧
            reading.1.toDeclaration.IsExact reading.1 ∧ reading.1.toDeclaration.IsNested) ∧
      (ofText path text).JoinsForward := by
  refine ⟨?_, joinsForward_ofText path text⟩
  obtain ⟨stretches, hyield, houtcome⟩ :=
    exists_stretches (ofText path text).stop (Terminal.ofTokens (ofText path text).tokens)
  obtain ⟨hregular, trailing, -, htokens⟩ := Terminal.exists_trailing (ofText path text).tokens
  have hpart : ∀ tree ∈ stretches.filterMap Stretch.tree?,
      tree.yield <:+: Terminal.ofTokens (ofText path text).tokens := by
    rw [hyield]
    exact fun tree htree => Stretch.yield_infix_of_mem htree
  refine ⟨(stretches.filterMap Stretch.tree?).map fun tree => (tree, Terminal.tokens tree.yield),
    ?_, ?_, ?_⟩
  · rw [parse, houtcome, List.map_map]
    rfl
  · rw [htokens, hyield, List.map_map]
    exact areBlocksOf_stretches stretches trailing
  · refine List.forall_mem_map.2 fun tree htree => ⟨?_, tree.isExact_toDeclaration, ?_⟩
    · exact DeclarationTree.derivesBlock fun t ht => hregular t ((hpart tree htree).subset ht)
    · exact DeclarationTree.isNested_toDeclaration
        ((inOrder_ofText path .first text.toList).sublist (hpart tree htree).sublist)

end TokenStream

end DeclFront
