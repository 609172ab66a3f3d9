import DeclFront.Proofs.Grammar.Blame
import DeclFront.Proofs.Grammar.Prediction

/-!
# Proofs/Grammar/Unclosed — attributes whose arguments are not closed

Where the clause of an attribute has no end, all that stands behind its parenthesis stands inside:
enough closing parentheses end it (`ArgumentClause.exists_read_append`), and with a body behind them
there is a declaration again (`UnclosedAttribute.viable`).  It is the one failure for which neither
the next terminal nor the end is blamed, and only the attributes of a declaration fail so
(`blame_of_declaration`).
-/

namespace DeclFront.Grammar

variable {terminals ts rest : List Terminal}

/-! ## Closing what is open -/

namespace ArgumentClause

variable {depth : Nat} {closing : Terminal}

/-- A clause is left open when no parenthesis closes it behind balanced terminals. -/
theorem read_one_eq_none_iff : read 1 ts = none ↔
    ∀ front closing back, ts = front ++ closing :: back → Balanced front →
      closing.isPunctuator .rightParen = false := by
  constructor
  · refine fun h front closing back hts hfront => Bool.eq_false_iff.2 fun hclosing => ?_
    have hread := @read_one_eq_some_iff ts ⟨front, closing, back⟩
    rw [h] at hread
    exact absurd (hread.2 ⟨hfront, hclosing, hts⟩) (by simp)
  · intro h
    cases hread : read 1 ts with
    | none => rfl
    | some clause =>
      obtain ⟨hinner, hclosing, hts⟩ := read_one_eq_some_iff.1 hread
      rw [h _ _ _ hts hinner] at hclosing
      cases hclosing

/-- As many closing parentheses as are open. -/
theorem read_replicate (hclosing : closing.isPunctuator .rightParen = true) :
    read (depth + 1) (List.replicate (depth + 1) closing) =
      some ⟨List.replicate depth closing, closing, []⟩ := by
  have hopening := isPunctuator_of_ne hclosing (q := .leftParen) (by decide)
  induction depth with
  | zero => rw [List.replicate_succ, read, if_neg (by simp [hopening]), if_pos hclosing]; rfl
  | succ depth ih =>
    rw [List.replicate_succ, read, if_neg (by simp [hopening]), if_pos hclosing, if_neg (by simp),
      Nat.add_sub_cancel, ih]
    rfl

/-- **Where no clause ends, closing parentheses end it.** -/
theorem exists_read_append (h : read (depth + 1) ts = none) :
    ∃ n, ∀ closing : Terminal, closing.isPunctuator .rightParen = true →
      read (depth + 1) (ts ++ List.replicate (n + 1) closing) =
        some ⟨ts ++ List.replicate n closing, closing, []⟩ := by
  induction ts generalizing depth with
  | nil => exact ⟨depth, fun closing hclosing => read_replicate hclosing⟩
  | cons t ts ih =>
    -- The count goes on from the first terminal, which stands inside.
    have step {d : Nat} (hread : (read (d + 1) ts).map (cons t) = none)
        (hstep : ∀ us, read (depth + 1) (t :: us) = (read (d + 1) us).map (cons t)) :
        ∃ n, ∀ closing : Terminal, closing.isPunctuator .rightParen = true →
          read (depth + 1) (t :: ts ++ List.replicate (n + 1) closing) =
            some ⟨t :: ts ++ List.replicate n closing, closing, []⟩ := by
      obtain ⟨n, hn⟩ := ih (Option.map_eq_none_iff.1 hread)
      refine ⟨n, fun closing hclosing => ?_⟩
      rw [List.cons_append, hstep, hn closing hclosing]
      rfl
    rw [read] at h
    split at h
    · rename_i hopen
      exact step h fun us => by rw [read, if_pos hopen]
    · rename_i hopen
      split at h
      · rename_i hclose
        split at h
        · cases h
        · rename_i hdepth
          obtain ⟨d, rfl⟩ := Nat.exists_eq_succ_of_ne_zero hdepth
          exact step h fun us => by rw [read, if_neg hopen, if_pos hclose, if_neg hdepth]; rfl
      · rename_i hclose
        exact step h fun us => by rw [read, if_neg hopen, if_neg hclose]

end ArgumentClause

/-! ## Attributes with an open clause -/

/-- An attribute with arguments that no parenthesis closes. -/
structure UnclosedAttribute where
  sign : Mark .atSign
  name : NameLeaf
  opening : Mark .leftParen
  isAdjacent : opening.terminal.isAdjacent = true
  inner : List Terminal
  not_closed : ∀ front closing back, inner = front ++ closing :: back → Balanced front →
    closing.isPunctuator .rightParen = false

namespace UnclosedAttribute

/-- The terminals from the sign on: the clause never closes, so it takes all that follow. -/
def yield (tree : UnclosedAttribute) : List Terminal :=
  tree.sign.terminal :: tree.name.terminal :: tree.opening.terminal :: tree.inner

/-- It begins with a sign, whatever attributes stand in front of it. -/
theorem begins_atSign (trees : List AttributeTree) (tree : UnclosedAttribute) :
    Begins (·.isPunctuator .atSign) (trees.flatMap AttributeTree.yield ++ tree.yield) := by
  rcases trees with _ | ⟨first, others⟩
  · exact begins_cons_iff.2 tree.sign.isPunctuator
  · exact begins_cons_iff.2 first.sign.isPunctuator

/-- Closing parentheses and an import continue it to a declaration. -/
theorem viable (trees : List AttributeTree) (tree : UnclosedAttribute) :
    Viable (fun us => ∃ tree : DeclarationTree, us = tree.yield)
      (trees.flatMap AttributeTree.yield ++ tree.yield) := by
  intro leading
  obtain ⟨n, hn⟩ :=
    ArgumentClause.exists_read_append (ArgumentClause.read_one_eq_none_iff.2 tree.not_closed)
  let closing : Mark .rightParen := ⟨fresh leading (.punctuator .rightParen), rfl⟩
  obtain ⟨hbalanced, -, -⟩ :=
    ArgumentClause.read_one_eq_some_iff.1 (hn closing.terminal closing.isPunctuator)
  obtain ⟨more, hmore, body, hbody⟩ := viable_body leading
  let clause : ClauseTree := ⟨tree.opening, tree.isAdjacent, _, hbalanced, closing⟩
  refine ⟨List.replicate n closing.terminal ++ closing.terminal :: more, ?_,
    ⟨trees ++ [⟨tree.sign, tree.name, some clause⟩], none, body⟩, ?_⟩
  · intro t ht
    rcases List.mem_append.1 ht with ht | ht
    · rw [List.eq_of_mem_replicate ht]
      exact ⟨rfl, rfl⟩
    · rcases List.mem_cons.1 ht with rfl | ht
      · exact ⟨rfl, rfl⟩
      · exact hmore t ht
  · rw [List.nil_append] at hbody
    simp [DeclarationTree.yield, DeclarationTree.headYield, AttributeTree.yield, yield,
      ClauseTree.yield, clause, hbody]

end UnclosedAttribute

/-! ## Only attributes open clauses -/

/-- A clause that is left open fails the attributes, whatever stands in front of it. -/
theorem attributes_of_unclosed (trees : List AttributeTree) (tree : UnclosedAttribute) :
    attributes (trees.flatMap AttributeTree.yield ++ tree.yield) =
      .failed (.unclosedArguments tree.opening.terminal.token) [] := by
  induction trees with
  | nil =>
    have hopens : opensClause tree.opening.terminal = true :=
      Bool.and_eq_true_iff.2 ⟨tree.isAdjacent, tree.opening.isPunctuator⟩
    refine attributes_of_failed tree.sign.isPunctuator ?_
    rw [attributeAfterSign_eq, name_eq_done_iff.2 ⟨tree.name, rfl, rfl⟩, Reading.andThen,
      behindName_of_unclosed hopens (ArgumentClause.read_one_eq_none_iff.2 tree.not_closed)]
  | cons first others ih =>
    -- Behind an attribute stands the sign of another, which does not continue it.
    have hbegins := tree.begins_atSign others
    have hfirst := (attributeAfterSign_eq_done_iff first.sign).2
      ⟨first, rfl, rfl, rfl, fun _ => not_opensClause_of_atSign hbegins⟩
    rw [List.flatMap_cons, List.append_assoc]
    refine (attributes_of_done first.sign.isPunctuator hfirst).trans ?_
    rw [ih]
    rfl

/-- **A declaration with a clause that is not closed fails there**, and nothing is left. -/
theorem declaration_of_unclosed (trees : List AttributeTree) (tree : UnclosedAttribute) :
    declaration (trees.flatMap AttributeTree.yield ++ tree.yield) =
      ⟨[], .failed (.unclosedArguments tree.opening.terminal.token) []⟩ := by
  rw [declaration, declarationHead, attributes_of_unclosed]
  rfl

/-- **Attributes that fail blame the next terminal**, or the parenthesis of a clause left open. -/
theorem blame_of_attributes {cause : Cause} (h : attributes terminals = .failed cause rest) :
    (∃ wanted, cause = .unexpected wanted (rest.head?.map Terminal.token)) ∨
      rest = [] ∧ ∃ (trees : List AttributeTree) (tree : UnclosedAttribute),
        terminals = trees.flatMap AttributeTree.yield ++ tree.yield ∧
          cause = .unclosedArguments tree.opening.terminal.token := by
  fun_induction attributes terminals with
  | case1 => cases h
  | case2 t ts ht a middle hread ih =>
    refine (ih (Reading.map_eq_failed_iff.1 h)).imp_right ?_
    rintro ⟨hrest, trees, tree, rfl, hcause⟩
    obtain ⟨first, -, hyield, -⟩ := (attributeAfterSign_eq_done_iff ⟨t, ht⟩).1 hread
    exact ⟨hrest, first :: trees, tree,
      by rw [List.flatMap_cons, List.append_assoc, ← hyield], hcause⟩
  | case3 t ts ht cause middle hread =>
    obtain ⟨rfl, rfl⟩ := Reading.failed.inj h
    rw [attributeAfterSign_eq] at hread
    rcases Reading.andThen_eq_failed_iff.1 hread with hname | ⟨n, middle, hname, hbehind⟩
    · exact .inl ((blamesNext_name _ _).exists_cause_eq hname)
    obtain ⟨leaf, rfl, -⟩ := name_eq_done_iff.1 hname
    rcases middle with _ | ⟨u, us⟩
    · cases hbehind
    rw [behindName] at hbehind
    split at hbehind
    · rename_i hopens
      obtain ⟨hadjacent, hparen⟩ := Bool.and_eq_true_iff.1 hopens
      split at hbehind
      · cases hbehind
      · rename_i hnone
        obtain ⟨rfl, rfl⟩ := Reading.failed.inj hbehind
        exact .inr ⟨rfl, [], ⟨⟨t, ht⟩, leaf, ⟨u, hparen⟩, hadjacent, us,
          ArgumentClause.read_one_eq_none_iff.1 hnone⟩, rfl, rfl⟩
    · cases hbehind
  | case4 => cases h

/-- **A declaration fails at the next terminal, or else for a clause that is not closed**, at an
attribute of its own and with nothing left. -/
theorem blame_of_declaration {cause : Cause}
    (h : (declaration terminals).reading = .failed cause rest) :
    (∃ wanted, cause = .unexpected wanted (rest.head?.map Terminal.token)) ∨
      rest = [] ∧ ∃ (trees : List AttributeTree) (tree : UnclosedAttribute),
        terminals = trees.flatMap AttributeTree.yield ++ tree.yield ∧
          cause = .unclosedArguments tree.opening.terminal.token := by
  rw [reading_declaration] at h
  rcases Reading.andThen_eq_failed_iff.1 h with hhead | ⟨head, middle, -, hafter⟩
  · rcases Reading.andThen_eq_failed_iff.1 hhead with hattributes | ⟨_, middle, -, hmodifier⟩
    · exact blame_of_attributes hattributes
    · have hfailed := Reading.map_eq_failed_iff.1 hmodifier
      exact .inl ((blamesNext_accessModifier _).exists_cause_eq hfailed)
  · exact .inl ((blamesNext_declarationAfter _ _).exists_cause_eq hafter)

/-- A declaration that blames a parenthesis begins with attributes and one left open. -/
theorem exists_unclosed_of_declaration {opening : Token}
    (h : (declaration terminals).reading = .failed (.unclosedArguments opening) rest) :
    ∃ (trees : List AttributeTree) (tree : UnclosedAttribute),
      terminals = trees.flatMap AttributeTree.yield ++ tree.yield ∧
        tree.opening.terminal.token = opening := by
  rcases blame_of_declaration h with ⟨wanted, hcause⟩ | ⟨-, trees, tree, rfl, hcause⟩
  · cases hcause
  · exact ⟨trees, tree, rfl, (Cause.unclosedArguments.inj hcause).symm⟩

end DeclFront.Grammar
