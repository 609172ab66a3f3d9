import DeclFront.Grammar.Declaration
import DeclFront.Proofs.Grammar.Head
import Mathlib.Logic.Basic

/-!
# Proofs/Grammar/Declaration — what the rules for bodies and declarations read

The body of an enumeration ends with its brace, so only an import can be continued by what follows
it.  In a declaration each part is followed by a terminal that cannot continue it: behind the
attributes and the modifier comes a keyword, which is no punctuator and asks for no access level.
Hence `declaration_eq_done_iff`: the parser reads a declaration exactly when the terminals begin
with the yield of one, and the point is what must not follow an import.
-/

namespace DeclFront.Grammar

variable {terminals rest : List Terminal}

/-! ## Enumerations -/

/-- A list of names ends with a name, not with a separator. -/
theorem NamesTree.getLast?_yield {separator : Punctuator} (tree : NamesTree separator) :
    tree.yield.getLast? = some tree.last.terminal := by
  obtain ⟨first, others⟩ := tree
  rcases List.eq_nil_or_concat others with rfl | ⟨others, other, rfl⟩
  · rfl
  · simp [NamesTree.yield, NamesTree.last, yieldOthers, List.getLast?_cons]

/-- A tree and the parser agree on the last name. -/
theorem NamesTree.name_last {separator : Punctuator} (tree : NamesTree separator) :
    (⟨tree.first.name, tree.others.map fun (_, leaf) => leaf.name⟩ : Names).last =
      tree.last.name := by
  rw [Names.last, NamesTree.last, List.getLast?_map]
  rcases tree.others.getLast? with _ | other <;> rfl

theorem CaseTree.getLast?_yield (tree : CaseTree) :
    tree.yield.getLast? = some tree.elements.last.terminal := by
  rw [CaseTree.yield, List.getLast?_cons, tree.elements.getLast?_yield]
  rfl

/-- **A clause is read just where a tree of one stands**, and it is the longest. -/
theorem enumCase_eq_done_iff (keyword : Word "case") {clause : EnumCase} :
    enumCase keyword.terminal.token terminals = .done clause rest ↔
      ∃ tree : CaseTree, tree.keyword = keyword ∧
        keyword.terminal :: terminals = tree.yield ++ rest ∧ clause = tree.toEnumCase ∧
          ¬ Begins (·.isPunctuator .comma) rest := by
  have hvalue (elements : NamesTree .comma) :
      (⟨elements.names, keyword.terminal.range.through (Names.last ⟨elements.first.name,
        elements.others.map fun (_, leaf) => leaf.name⟩).range⟩ : EnumCase) =
        CaseTree.toEnumCase ⟨keyword, elements⟩ := by
    rw [CaseTree.toEnumCase, elements.name_last, span_eq _ rfl (CaseTree.getLast?_yield _)]
    rfl
  rw [enumCase]
  simp only [Reading.map_eq_done_iff, names_eq_done_iff]
  constructor
  · rintro ⟨_, ⟨elements, rfl, rfl, hrest⟩, rfl⟩
    exact ⟨⟨keyword, elements⟩, rfl, rfl, hvalue elements, hrest⟩
  · rintro ⟨⟨_, elements⟩, rfl, hyield, rfl, hrest⟩
    exact ⟨_, ⟨elements, (List.cons.inj hyield).2, rfl, hrest⟩, hvalue elements⟩

/-- A terminal is a keyword or a punctuator. -/
theorem isPunctuator_of_isKeyword {t : Terminal} {word : String} (h : t.isKeyword word = true)
    (p : Punctuator) : t.isPunctuator p = false := by
  cases hk : t.token.kind <;>
    simp_all [Terminal.isKeyword, TokenKind.isKeyword, Terminal.isPunctuator,
      TokenKind.isPunctuator]

/-- No terminal is both a punctuator and a keyword. -/
theorem isKeyword_of_isPunctuator {t : Terminal} {p : Punctuator} (h : t.isPunctuator p = true)
    (word : String) : t.isKeyword word = false :=
  Bool.eq_false_iff.2 fun hword =>
    Bool.eq_false_iff.1 (isPunctuator_of_isKeyword hword p) h

/-- Nothing that stands in a body continues the `case` clause in front of it. -/
theorem not_begins_comma (members : List MemberTree) (closing : Mark .rightBrace)
    (rest : List Terminal) :
    ¬ Begins (·.isPunctuator .comma)
      (members.flatMap MemberTree.yield ++ closing.terminal :: rest) := by
  intro h
  cases members with
  | nil =>
    exact Bool.eq_false_iff.1 (isPunctuator_of_ne closing.isPunctuator (by decide))
      (begins_cons_iff.1 h)
  | cons member members =>
    cases member with
    | clause tree =>
      exact Bool.eq_false_iff.1 (isPunctuator_of_isKeyword tree.keyword.isKeyword _)
        (begins_cons_iff.1 h)
    | semicolon mark =>
      exact Bool.eq_false_iff.1 (isPunctuator_of_ne mark.isPunctuator (by decide))
        (begins_cons_iff.1 h)

/-- **A body is read just where its members stand** in front of a closing brace. -/
theorem enumBody_eq_done_iff {cases : List EnumCase} {close : Token} :
    enumBody terminals = .done (cases, close) rest ↔
      ∃ (members : List MemberTree) (closing : Mark .rightBrace),
        terminals = members.flatMap MemberTree.yield ++ closing.terminal :: rest ∧
          cases = members.filterMap MemberTree.enumCase? ∧ close = closing.terminal.token := by
  constructor
  · intro h
    fun_induction enumBody terminals generalizing cases with
    | case1 => cases h
    | case2 t ts ht =>
      cases h
      exact ⟨[], ⟨t, ht⟩, rfl, rfl, rfl⟩
    | case3 t ts _ ht clause middle hclause ih =>
      obtain ⟨⟨tail, _⟩, htail, h⟩ := Reading.map_eq_done_iff.1 h
      cases h
      obtain ⟨members, closing, rfl, rfl, rfl⟩ := ih htail
      obtain ⟨tree, -, hyield, rfl, -⟩ := (enumCase_eq_done_iff ⟨t, ht⟩).1 hclause
      refine ⟨.clause tree :: members, closing, ?_, rfl, rfl⟩
      rw [List.flatMap_cons, List.append_assoc]
      exact hyield
    | case4 => cases h
    | case5 t ts _ _ ht ih =>
      obtain ⟨members, closing, rfl, rfl, rfl⟩ := ih h
      exact ⟨.semicolon ⟨t, ht⟩ :: members, closing, rfl, rfl, rfl⟩
    | case6 => cases h
  · rintro ⟨members, closing, rfl, rfl, rfl⟩
    induction members with
    | nil => exact enumBody_of_close closing.isPunctuator
    | cons member members ih =>
      cases member with
      | clause tree =>
        have hcase := (enumCase_eq_done_iff tree.keyword).2
          ⟨tree, rfl, rfl, rfl, not_begins_comma members closing rest⟩
        rw [List.flatMap_cons, List.append_assoc]
        refine (enumBody_of_done (isPunctuator_of_isKeyword tree.keyword.isKeyword _)
          tree.keyword.isKeyword hcase).trans ?_
        rw [ih]
        rfl
      | semicolon mark =>
        rw [List.flatMap_cons, List.append_assoc, MemberTree.yield, List.singleton_append, enumBody,
          if_neg (by simp [isPunctuator_of_ne mark.isPunctuator (q := .rightBrace) (by decide)]),
          if_neg (by simp [isKeyword_of_isPunctuator mark.isPunctuator]),
          if_pos mark.isPunctuator]
        exact ih

/-! ## Bodies -/

/-- What follows the body does not continue it: no point behind an import. -/
def BodyTree.EndsBefore : BodyTree → List Terminal → Prop
  | enumeration _, _ => True
  | importing _, rest => ¬ Begins (·.isPunctuator .period) rest

/-- An enumeration is read just where a tree of one stands, whatever follows it. -/
theorem enumeration_eq_done_iff (keyword : Word "enum") {body : DeclarationBody} {r : Range} :
    enumeration terminals = .done (body, r) rest ↔
      ∃ tree : EnumerationTree, tree.keyword = keyword ∧
        keyword.terminal :: terminals = tree.yield ++ rest ∧
          body = (BodyTree.enumeration tree).toBody ∧ r = tree.closing.terminal.range := by
  simp only [enumeration, Reading.andThen_eq_done_iff, Reading.map_eq_done_iff, name_eq_done_iff,
    token_eq_done_iff, Prod.exists, enumBody_eq_done_iff]
  constructor
  · rintro ⟨_, _, ⟨leaf, rfl, rfl⟩, _, _, ⟨brace, hbrace, rfl, rfl⟩, _, _,
      ⟨members, closing, rfl, rfl, rfl⟩, h⟩
    cases h
    exact ⟨⟨keyword, leaf, ⟨brace, hbrace⟩, members, closing⟩, rfl, by simp [EnumerationTree.yield],
      rfl, rfl⟩
  · rintro ⟨⟨_, leaf, opening, members, closing⟩, rfl, hyield, rfl, rfl⟩
    refine ⟨_, _, ⟨leaf, ?_, rfl⟩, _, _, ⟨opening.terminal, opening.isPunctuator, rfl, rfl⟩, _, _,
      ⟨members, closing, rfl, rfl, rfl⟩, rfl⟩
    simpa [EnumerationTree.yield] using hyield

/-- An import is read just where a tree of one stands, and no point continues it. -/
theorem importing_eq_done_iff (keyword : Word "import") {body : DeclarationBody} {r : Range} :
    importing terminals = .done (body, r) rest ↔
      ∃ tree : ImportTree, tree.keyword = keyword ∧
        keyword.terminal :: terminals = tree.yield ++ rest ∧
          body = (BodyTree.importing tree).toBody ∧ r = tree.path.last.terminal.range ∧
            ¬ Begins (·.isPunctuator .period) rest := by
  simp only [importing, Reading.map_eq_done_iff, names_eq_done_iff]
  constructor
  · rintro ⟨_, ⟨path, rfl, rfl, hrest⟩, h⟩
    rw [path.name_last] at h
    cases h
    exact ⟨⟨keyword, path⟩, rfl, rfl, rfl, rfl, hrest⟩
  · rintro ⟨⟨_, path⟩, rfl, hyield, rfl, rfl, hrest⟩
    refine ⟨_, ⟨path, (List.cons.inj hyield).2, rfl, hrest⟩, ?_⟩
    rw [path.name_last]
    rfl

theorem span_start {ts : List Terminal} (h : ts ≠ []) {t : Terminal} (ht : ts.head? = some t) :
    (span ts h).start = t.range.start := by
  rw [List.head?_eq_some_head h] at ht
  rw [← Option.some.inj ht]
  rfl

theorem span_stop {ts : List Terminal} (h : ts ≠ []) {t : Terminal} (ht : ts.getLast? = some t) :
    (span ts h).stop = t.range.stop := by
  rw [List.getLast?_eq_some_getLast h] at ht
  rw [← Option.some.inj ht]
  rfl

theorem BodyTree.head?_yield (tree : BodyTree) : tree.yield.head? = some tree.keyword := by
  cases tree <;> rfl

theorem BodyTree.getLast?_yield (tree : BodyTree) : tree.yield.getLast? = some tree.last := by
  rcases tree with tree | tree
  · simp [BodyTree.yield, BodyTree.last, EnumerationTree.yield, List.getLast?_cons]
  · simp [BodyTree.yield, BodyTree.last, ImportTree.yield, List.getLast?_cons,
      tree.path.getLast?_yield]

/-- The declaration that a head and the tree of a body make. -/
theorem DeclarationHead.declare_toBody (head : DeclarationHead) (tree : BodyTree) :
    head.declare tree.keyword (tree.toBody, tree.last.range) =
      ⟨head.attributes, head.access, tree.toBody,
        (head.firstRange?.getD (span tree.yield tree.yield_ne_nil)).through
          (span tree.yield tree.yield_ne_nil)⟩ := by
  rw [span_eq _ tree.head?_yield tree.getLast?_yield, declare]
  rcases head.firstRange? with _ | r <;> rfl

/-- A body, and the declaration that it makes with a head. -/
theorem declarationAfter_eq_done_iff (head : DeclarationHead) {d : Declaration} :
    declarationAfter head terminals = .done d rest ↔
      ∃ tree : BodyTree, terminals = tree.yield ++ rest ∧
        d = ⟨head.attributes, head.access, tree.toBody,
          (head.firstRange?.getD (span tree.yield tree.yield_ne_nil)).through
            (span tree.yield tree.yield_ne_nil)⟩ ∧ tree.EndsBefore rest := by
  constructor
  · intro h
    unfold declarationAfter at h
    split at h
    · cases h
    · rename_i t ts
      split at h
      · rename_i hkeyword
        obtain ⟨⟨body, r⟩, hbody, rfl⟩ := Reading.map_eq_done_iff.1 h
        obtain ⟨tree, hk, hyield, rfl, rfl⟩ :=
          (enumeration_eq_done_iff ⟨t, hkeyword⟩).1 hbody
        obtain rfl : (BodyTree.enumeration tree).keyword = t := congrArg Word.terminal hk
        exact ⟨.enumeration tree, hyield, head.declare_toBody (.enumeration tree), trivial⟩
      · split at h
        · rename_i hkeyword
          obtain ⟨⟨body, r⟩, hbody, rfl⟩ := Reading.map_eq_done_iff.1 h
          obtain ⟨tree, hk, hyield, rfl, rfl, hrest⟩ :=
            (importing_eq_done_iff ⟨t, hkeyword⟩).1 hbody
          obtain rfl : (BodyTree.importing tree).keyword = t := congrArg Word.terminal hk
          exact ⟨.importing tree, hyield, head.declare_toBody (.importing tree), hrest⟩
        · cases h
  · rintro ⟨tree, rfl, rfl, hrest⟩
    cases tree with
    | enumeration tree =>
      have hbody := (enumeration_eq_done_iff tree.keyword).2
        ⟨tree, rfl, (rfl : _ = tree.yield ++ rest), rfl, rfl⟩
      exact (if_pos tree.keyword.isKeyword).trans
        (Reading.map_eq_done_iff.2 ⟨_, hbody, head.declare_toBody (.enumeration tree)⟩)
    | importing tree =>
      have hbody := (importing_eq_done_iff tree.keyword).2
        ⟨tree, rfl, (rfl : _ = tree.yield ++ rest), rfl, rfl, hrest⟩
      have hother : ¬ tree.keyword.terminal.isKeyword "enum" = true := by
        have := tree.keyword.isKeyword
        cases hk : tree.keyword.terminal.token.kind <;>
          simp_all [Terminal.isKeyword, TokenKind.isKeyword]
      exact (if_neg hother).trans ((if_pos tree.keyword.isKeyword).trans
        (Reading.map_eq_done_iff.2 ⟨_, hbody, head.declare_toBody (.importing tree)⟩))

/-! ## Declarations -/

theorem isPunctuator_of_kind_eq_keyword {t : Terminal} {k : Keyword}
    (h : t.token.kind = .keyword k) (p : Punctuator) : t.isPunctuator p = false := by
  rw [Terminal.isPunctuator, h]
  rfl

/-- A body begins with a keyword that asks for no access level. -/
theorem BodyTree.yield_eq_cons (tree : BodyTree) :
    ∃ t ts k, tree.yield = t :: ts ∧ t.token.kind = .keyword k ∧ t.accessLevel? = none := by
  have key {t : Terminal} {word : String} (h : t.isKeyword word = true)
      (hword : AccessLevel.ofWord? word = none) :
      ∃ k, t.token.kind = .keyword k ∧ t.accessLevel? = none := by
    unfold Terminal.isKeyword TokenKind.isKeyword at h
    split at h
    · rename_i k hk
      refine ⟨k, hk, ?_⟩
      rw [Terminal.accessLevel?, hk, TokenKind.accessLevel?, beq_iff_eq.1 h, hword]
    · cases h
  cases tree with
  | enumeration tree =>
    obtain ⟨k, hk, hlevel⟩ := key tree.keyword.isKeyword rfl
    exact ⟨_, _, k, rfl, hk, hlevel⟩
  | importing tree =>
    obtain ⟨k, hk, hlevel⟩ := key tree.keyword.isKeyword rfl
    exact ⟨_, _, k, rfl, hk, hlevel⟩

/-- A modifier begins with a keyword. -/
theorem AccessLeaf.exists_keyword (leaf : AccessLeaf) :
    ∃ k, leaf.terminal.token.kind = .keyword k := by
  have h := leaf.accessLevel?_eq
  unfold Terminal.accessLevel? TokenKind.accessLevel? at h
  split at h
  · exact ⟨_, ‹_›⟩
  · cases h

/-- Behind the attributes of a declaration stands a keyword: that of the modifier or of the
body. -/
theorem headRest_eq_cons (modifier : Option ModifierTree) (body : BodyTree)
    (rest : List Terminal) :
    ∃ t ts k, (modifier.map ModifierTree.yield).getD [] ++ (body.yield ++ rest) = t :: ts ∧
      t.token.kind = .keyword k := by
  cases modifier with
  | none =>
    obtain ⟨t, ts, k, hyield, hk, -⟩ := body.yield_eq_cons
    exact ⟨t, ts ++ rest, k, by simp [hyield], hk⟩
  | some modifier =>
    obtain ⟨k, hk⟩ := modifier.keyword.exists_keyword
    exact ⟨_, _, k, rfl, hk⟩

/-- In front of a body, a head is read as its trees say. -/
theorem declarationHead_of_trees (attributeTrees : List AttributeTree)
    (modifier : Option ModifierTree) (body : BodyTree) (rest : List Terminal) :
    declarationHead (attributeTrees.flatMap AttributeTree.yield ++
        ((modifier.map ModifierTree.yield).getD [] ++ (body.yield ++ rest))) =
      .done ⟨attributeTrees.map AttributeTree.toAttribute, modifier.map ModifierTree.toModifier⟩
        (body.yield ++ rest) := by
  obtain ⟨t, ts, k, hbehind, hk⟩ := headRest_eq_cons modifier body rest
  have hattributes := attributes_eq_done_iff |>.2
    ⟨attributeTrees, (rfl : _ = _ ++ ((modifier.map ModifierTree.yield).getD [] ++
      (body.yield ++ rest))), rfl, by
        rw [hbehind, begins_cons_iff, isPunctuator_of_kind_eq_keyword hk]
        simp, fun last _ _ => by
        rw [hbehind, begins_cons_iff, opensClause, isPunctuator_of_kind_eq_keyword hk]
        simp⟩
  have hmodifier : accessModifier ((modifier.map ModifierTree.yield).getD [] ++
      (body.yield ++ rest)) = .done (modifier.map ModifierTree.toModifier) (body.yield ++ rest) :=
    accessModifier_eq_done_iff.2 ⟨modifier, rfl, rfl, by
      obtain ⟨u, us, l, hbody, hl, hlevel⟩ := body.yield_eq_cons
      cases modifier with
      | none =>
        rw [hbody, ModifierEndsBefore, List.cons_append, begins_cons_iff, hlevel]
        simp
      | some modifier =>
        intro _
        rw [hbody, List.cons_append, begins_cons_iff, isPunctuator_of_kind_eq_keyword hl]
        simp⟩
  exact Reading.andThen_eq_done_iff.2
    ⟨_, _, hattributes, Reading.map_eq_done_iff.2 ⟨_, hmodifier, rfl⟩⟩

/-- The head that the trees of attributes and of a modifier make. -/
theorem DeclarationTree.toDeclaration_eq (tree : DeclarationTree) (head : DeclarationHead)
    (hhead : head = ⟨tree.attributes.map AttributeTree.toAttribute,
      tree.modifier.map ModifierTree.toModifier⟩) :
    tree.toDeclaration = ⟨head.attributes, head.access, tree.body.toBody,
      (head.firstRange?.getD (span tree.body.yield tree.body.yield_ne_nil)).through
        (span tree.body.yield tree.body.yield_ne_nil)⟩ := by
  obtain ⟨attributes, modifier, body⟩ := tree
  subst hhead
  have haccess : DeclarationTree.access ⟨attributes, modifier, body⟩ = DeclarationHead.access
      ⟨attributes.map AttributeTree.toAttribute, modifier.map ModifierTree.toModifier⟩ := by
    cases modifier with
    | none => rfl
    | some modifier => exact modifier.access_toModifier.symm
  have hlast : (DeclarationTree.yield ⟨attributes, modifier, body⟩).getLast? =
      some (body.yield.getLast body.yield_ne_nil) := by
    rw [DeclarationTree.yield, List.getLast?_append,
      List.getLast?_eq_some_getLast body.yield_ne_nil, Option.some_or]
  have hstop := span_stop (DeclarationTree.yield_ne_nil ⟨attributes, modifier, body⟩) hlast
  -- The first terminal is that of the first attribute, else of the modifier, else of the body.
  have hstart : (span _ (DeclarationTree.yield_ne_nil ⟨attributes, modifier, body⟩)).start =
      (((DeclarationHead.mk (attributes.map AttributeTree.toAttribute)
        (modifier.map ModifierTree.toModifier)).firstRange?).getD
          (span body.yield body.yield_ne_nil)).start := by
    cases attributes with
    | cons first others => exact span_start _ rfl
    | nil =>
      cases modifier with
      | some modifier => exact span_start _ rfl
      | none => rfl
  simp only [DeclarationTree.toDeclaration, haccess, Declaration.mk.injEq, true_and]
  exact congrArg₂ Range.mk hstart (hstop.trans (span_stop body.yield_ne_nil
    (List.getLast?_eq_some_getLast _)).symm)

/-- **The parser reads the declaration of a tree**, whatever follows that does not continue it, and
diagnoses the modifier as the tree does. -/
theorem declaration_of_tree (tree : DeclarationTree) (hrest : tree.body.EndsBefore rest) :
    declaration (tree.yield ++ rest) =
      ⟨tree.rejection?.toList, .done tree.toDeclaration rest⟩ := by
  have hbody := (declarationAfter_eq_done_iff ⟨tree.attributes.map AttributeTree.toAttribute,
    tree.modifier.map ModifierTree.toModifier⟩).2 ⟨tree.body, rfl, rfl, hrest⟩
  have hdiagnostics : DeclarationHead.diagnostics ⟨tree.attributes.map AttributeTree.toAttribute,
      tree.modifier.map ModifierTree.toModifier⟩ = tree.rejection?.toList := by
    obtain ⟨attributes, modifier, body⟩ := tree
    cases modifier with
    | none => rfl
    | some modifier =>
      simp [DeclarationHead.diagnostics, DeclarationTree.rejection?,
        modifier.diagnostics_toModifier]
  rw [DeclarationTree.yield, DeclarationTree.headYield, List.append_assoc, List.append_assoc,
    declaration, declarationHead_of_trees]
  simp only [hbody, hdiagnostics]
  rw [tree.toDeclaration_eq _ rfl]

/-- **What the parser reads as a declaration derives one**, and what follows does not continue
it. -/
theorem exists_tree_of_declaration {d : Declaration}
    (h : (declaration terminals).reading = .done d rest) :
    ∃ tree : DeclarationTree, terminals = tree.yield ++ rest ∧ d = tree.toDeclaration ∧
      tree.body.EndsBefore rest := by
  unfold declaration at h
  split at h
  · rename_i head middle hhead
    obtain ⟨_, _, hattributes, hbehind⟩ := Reading.andThen_eq_done_iff.1 hhead
    obtain ⟨_, hmodifier, rfl⟩ := Reading.map_eq_done_iff.1 hbehind
    obtain ⟨attributeTrees, rfl, rfl, -⟩ := attributes_eq_done_iff.1 hattributes
    obtain ⟨modifier, rfl, rfl, -⟩ := accessModifier_eq_done_iff.1 hmodifier
    obtain ⟨body, rfl, rfl, hrest⟩ := (declarationAfter_eq_done_iff _).1 h
    refine ⟨⟨attributeTrees, modifier, body⟩, ?_, ?_, hrest⟩
    · simp [DeclarationTree.yield, DeclarationTree.headYield]
    · exact (DeclarationTree.toDeclaration_eq ⟨attributeTrees, modifier, body⟩ _ rfl).symm
  · cases h

end DeclFront.Grammar
