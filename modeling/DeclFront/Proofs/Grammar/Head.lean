import DeclFront.Grammar.Head
import DeclFront.Proofs.Grammar.Reading

/-!
# Proofs/Grammar/Head — what the rules for attributes and modifiers read

The count of open parentheses that reads a clause finds the parenthesis that matches the opening one
(`ArgumentClause.read_one_eq_some_iff`): balanced terminals leave the count as it is, and where a
clause ends balanced terminals stand in front of a closing parenthesis.  The lemmas for
attributes and for the modifier follow the rules of the grammar.
-/

namespace DeclFront.Grammar

variable {terminals rest : List Terminal}

/-! ## Argument clauses -/

/-- A terminal is one punctuator at most. -/
theorem isPunctuator_of_ne {t : Terminal} {p q : Punctuator} (h : t.isPunctuator p = true)
    (hpq : p ≠ q) : t.isPunctuator q = false := by
  simp only [Terminal.isPunctuator, TokenKind.isPunctuator, beq_iff_eq] at h
  simpa [Terminal.isPunctuator, TokenKind.isPunctuator, h] using hpq

namespace ArgumentClause

/-- The clause with more terminals inside, at the front. -/
def extend (front : List Terminal) (clause : ArgumentClause) : ArgumentClause :=
  ⟨front ++ clause.inner, clause.closing, clause.rest⟩

/-- **Balanced terminals leave the count of open parentheses as it is.** -/
theorem read_append_of_balanced {inner : List Terminal} (h : Balanced inner) (depth : Nat)
    (ts : List Terminal) :
    read (depth + 1) (inner ++ ts) = (read (depth + 1) ts).map (extend inner) := by
  induction h generalizing depth ts with
  | nil => exact Option.map_id'.symm
  | other hopen hclose _ ih =>
    rw [List.cons_append, read, if_neg (by simp [hopen]), if_neg (by simp [hclose]), ih,
      Option.map_map]
    rfl
  | nested hopen _ hclose _ ihinner ihts =>
    have hclose' := isPunctuator_of_ne hclose (q := .leftParen) (by decide)
    rw [List.cons_append, List.append_assoc, List.cons_append, read, if_pos hopen, ihinner, read,
      if_neg (by simp [hclose']), if_pos hclose, if_neg (by simp), Nat.add_sub_cancel, ihts]
    simp only [Option.map_map]
    congr 1
    funext clause
    simp [extend, cons]

/-- Where a clause ends, whatever the count of open parentheses, balanced terminals stand in front
of a closing parenthesis. -/
theorem exists_balanced_of_read {depth : Nat} {ts : List Terminal} {clause : ArgumentClause}
    (h : read (depth + 1) ts = some clause) :
    ∃ inner closing others, Balanced inner ∧ closing.isPunctuator .rightParen = true ∧
      ts = inner ++ closing :: others := by
  -- An opening parenthesis wants the lemma twice: for what it holds, and for what stands behind.
  induction hn : ts.length using Nat.strongRecOn generalizing ts depth clause with
  | _ n ih =>
    subst hn
    cases ts with
    | nil => cases h
    | cons t ts =>
      rw [read] at h
      split at h
      · rename_i hopen
        obtain ⟨clause₁, h₁, -⟩ := Option.map_eq_some_iff.1 h
        obtain ⟨inner₁, closing₁, others₁, hinner₁, hclosing₁, rfl⟩ :=
          ih _ (Nat.lt_succ_self _) h₁ rfl
        have hclosing₁' := isPunctuator_of_ne hclosing₁ (q := .leftParen) (by decide)
        rw [read_append_of_balanced hinner₁, read, if_neg (by simp [hclosing₁']), if_pos hclosing₁,
          if_neg (by simp), Nat.add_sub_cancel, Option.map_map] at h₁
        obtain ⟨clause₂, h₂, -⟩ := Option.map_eq_some_iff.1 h₁
        have hlt : others₁.length < (t :: (inner₁ ++ closing₁ :: others₁)).length := by
          simp only [List.length_cons, List.length_append]
          omega
        obtain ⟨inner₂, closing₂, others₂, hinner₂, hclosing₂, rfl⟩ := ih _ hlt h₂ rfl
        exact ⟨t :: (inner₁ ++ closing₁ :: inner₂), closing₂, others₂,
          .nested hopen hinner₁ hclosing₁ hinner₂, hclosing₂, by simp⟩
      · rename_i hopen
        split at h
        · rename_i hclose
          exact ⟨[], t, ts, .nil, hclose, rfl⟩
        · rename_i hclose
          obtain ⟨clause₁, h₁, -⟩ := Option.map_eq_some_iff.1 h
          obtain ⟨inner, closing, others, hinner, hclosing, rfl⟩ :=
            ih _ (Nat.lt_succ_self _) h₁ rfl
          exact ⟨t :: inner, closing, others,
            .other (by simpa using hopen) (by simpa using hclose) hinner, hclosing, rfl⟩

/-- **A clause is read up to the parenthesis that matches the one that opens it.** -/
theorem read_one_eq_some_iff {ts : List Terminal} {clause : ArgumentClause} :
    read 1 ts = some clause ↔
      Balanced clause.inner ∧ clause.closing.isPunctuator .rightParen = true ∧
        ts = clause.inner ++ clause.closing :: clause.rest := by
  have complete {inner others : List Terminal} {closing : Terminal} (hinner : Balanced inner)
      (hclosing : closing.isPunctuator .rightParen = true) :
      read 1 (inner ++ closing :: others) = some ⟨inner, closing, others⟩ := by
    have hclosing' := isPunctuator_of_ne hclosing (q := .leftParen) (by decide)
    rw [read_append_of_balanced hinner 0, read, if_neg (by simp [hclosing']), if_pos hclosing]
    simp [extend]
  constructor
  · intro h
    obtain ⟨inner, closing, others, hinner, hclosing, rfl⟩ := exists_balanced_of_read h
    rw [complete hinner hclosing] at h
    cases h
    exact ⟨hinner, hclosing, rfl⟩
  · obtain ⟨inner, closing, others⟩ := clause
    rintro ⟨hinner, hclosing, rfl⟩
    exact complete hinner hclosing

end ArgumentClause

/-! ## Attributes -/

/-- The terminal opens the arguments of the attribute whose name it follows. -/
def opensClause (t : Terminal) : Bool := t.isAdjacent && t.isPunctuator .leftParen

/-- What follows the attribute does not continue it: without a clause, no clause opens there. -/
def AttributeTree.EndsBefore (tree : AttributeTree) (rest : List Terminal) : Prop :=
  tree.clause = none → ¬ Begins opensClause rest

/-- A tree and the parser write the arguments out alike. -/
theorem ClauseTree.text_eq (tree : ClauseTree) (rest : List Terminal) :
    tree.text = (⟨tree.inner, tree.closing.terminal, rest⟩ : ArgumentClause).text
      tree.opening.terminal.token := by
  have hleading : tree.opening.terminal.leading = [] := List.isEmpty_iff.1 tree.isAdjacent
  apply String.toList_injective
  simp [ClauseTree.text, ClauseTree.yield, ArgumentClause.text, Terminal.spelling, hleading]

/-- With arguments, an attribute ranges up to their closing parenthesis. -/
theorem AttributeTree.toAttribute_of_clause (sign : Mark .atSign) (name : NameLeaf)
    (clause : ClauseTree) :
    toAttribute ⟨sign, name, some clause⟩ = ⟨name.text, some clause.text,
      sign.terminal.range.through clause.closing.terminal.range⟩ := by
  have hspan : span (yield ⟨sign, name, some clause⟩) (yield_ne_nil _) =
      sign.terminal.range.through clause.closing.terminal.range :=
    span_eq _ rfl (by simp [yield, ClauseTree.yield, List.getLast?_cons])
  rw [toAttribute, hspan]
  rfl

/-- **An attribute is read just where a tree of one stands** that no clause continues. -/
theorem attributeAfterSign_eq_done_iff (sign : Mark .atSign) {a : Attribute} :
    attributeAfterSign sign.terminal.token terminals = .done a rest ↔
      ∃ tree : AttributeTree, tree.sign = sign ∧ sign.terminal :: terminals = tree.yield ++ rest ∧
        a = tree.toAttribute ∧ tree.EndsBefore rest := by
  rw [attributeAfterSign, Reading.andThen_eq_done_iff]
  simp only [name_eq_done_iff]
  constructor
  · rintro ⟨_, middle, ⟨leaf, rfl, rfl⟩, h⟩
    cases middle with
    | nil =>
      cases h
      exact ⟨⟨sign, leaf, none⟩, rfl, rfl, rfl, fun _ => not_begins_nil _⟩
    | cons t ts =>
      simp only at h
      split at h
      · rename_i hopens
        split at h
        · rename_i clause hclause
          cases h
          obtain ⟨hbalanced, hclosing, rfl⟩ := ArgumentClause.read_one_eq_some_iff.1 hclause
          rw [Bool.and_eq_true] at hopens
          let tree : ClauseTree :=
            ⟨⟨t, hopens.2⟩, hopens.1, clause.inner, hbalanced, ⟨clause.closing, hclosing⟩⟩
          refine ⟨⟨sign, leaf, some tree⟩, rfl, ?_, ?_, fun hnone => by cases hnone⟩
          · simp [AttributeTree.yield, ClauseTree.yield, tree]
          · have htext : tree.text = clause.text t.token := tree.text_eq clause.rest
            rw [AttributeTree.toAttribute_of_clause, htext]
            rfl
        · cases h
      · rename_i hopens
        cases h
        exact ⟨⟨sign, leaf, none⟩, rfl, rfl, rfl, fun _ h => hopens (begins_cons_iff.1 h)⟩
  · rintro ⟨⟨_, leaf, clause⟩, rfl, hyield, rfl, hrest⟩
    obtain rfl : terminals = leaf.terminal :: ((clause.map ClauseTree.yield).getD [] ++ rest) :=
      (List.cons.inj hyield).2
    refine ⟨leaf.name, _, ⟨leaf, rfl, rfl⟩, ?_⟩
    cases clause with
    | none =>
      cases rest with
      | nil => rfl
      | cons t ts => exact if_neg fun hopens => hrest rfl (begins_cons_iff.2 hopens)
    | some clause =>
      have hread : ArgumentClause.read 1 (clause.inner ++ clause.closing.terminal :: rest) =
          some ⟨clause.inner, clause.closing.terminal, rest⟩ :=
        ArgumentClause.read_one_eq_some_iff.2 ⟨clause.balanced, clause.closing.isPunctuator, rfl⟩
      simp only [Option.map_some, Option.getD_some, ClauseTree.yield, List.cons_append,
        List.append_assoc, List.nil_append, clause.isAdjacent, clause.opening.isPunctuator,
        Bool.and_self, if_true, hread]
      rw [AttributeTree.toAttribute_of_clause, ← ClauseTree.text_eq]
      rfl

/-- Where attributes stand, their first sign stands in front. -/
theorem begins_atSign_of_ne_nil {trees : List AttributeTree} (h : trees ≠ []) :
    Begins (·.isPunctuator .atSign) (trees.flatMap AttributeTree.yield ++ rest) := by
  cases trees with
  | nil => exact absurd rfl h
  | cons tree trees => exact begins_cons_iff.2 tree.sign.isPunctuator

/-- A sign cannot be taken for the start of a clause. -/
theorem not_opensClause_of_atSign (h : Begins (·.isPunctuator .atSign) rest) :
    ¬ Begins opensClause rest := by
  obtain ⟨t, ts, rfl, ht⟩ := h
  rw [begins_cons_iff, opensClause, isPunctuator_of_ne ht (by decide)]
  simp

/-- Attributes are read one by one, up to the first terminal that is no sign. -/
theorem attributes_eq_done_iff {as : List Attribute} :
    attributes terminals = .done as rest ↔
      ∃ trees : List AttributeTree, terminals = trees.flatMap AttributeTree.yield ++ rest ∧
        as = trees.map AttributeTree.toAttribute ∧ ¬ Begins (·.isPunctuator .atSign) rest ∧
          ∀ last ∈ trees.getLast?, last.EndsBefore rest := by
  constructor
  · intro h
    fun_induction attributes terminals generalizing as with
    | case1 =>
      cases h
      exact ⟨[], rfl, rfl, not_begins_nil _, by simp⟩
    | case2 t ts ht a middle hattribute ih =>
      obtain ⟨tail, htail, rfl⟩ := Reading.map_eq_done_iff.1 h
      obtain ⟨trees, rfl, rfl, hrest, hlast⟩ := ih htail
      obtain ⟨tree, -, hyield, rfl, hends⟩ :=
        (attributeAfterSign_eq_done_iff ⟨t, ht⟩).1 hattribute
      refine ⟨tree :: trees, by rw [List.flatMap_cons, List.append_assoc, ← hyield], rfl, hrest, ?_⟩
      rw [List.getLast?_cons]
      rintro _ ⟨⟩
      cases trees with
      | nil => exact hends
      | cons other others => exact hlast _ (by simp [List.getLast?_cons])
    | case3 => cases h
    | case4 t ts ht =>
      cases h
      exact ⟨[], rfl, rfl, by simpa using ht, by simp⟩
  · rintro ⟨trees, rfl, rfl, hrest, hlast⟩
    induction trees with
    | nil =>
      cases rest with
      | nil => rw [List.flatMap_nil, List.nil_append, attributes]; rfl
      | cons t ts => exact attributes_of_other (by simpa using hrest)
    | cons tree trees ih =>
      have hends : tree.EndsBefore (trees.flatMap AttributeTree.yield ++ rest) := by
        intro hclause
        cases trees with
        | nil => exact hlast tree rfl hclause
        | cons other others =>
          exact not_opensClause_of_atSign (begins_atSign_of_ne_nil (List.cons_ne_nil _ _))
      have hattribute := (attributeAfterSign_eq_done_iff tree.sign).2
        ⟨tree, rfl, rfl, rfl, hends⟩
      rw [List.flatMap_cons, List.append_assoc]
      refine (attributes_of_done tree.sign.isPunctuator hattribute).trans ?_
      rw [ih fun last h => hlast last ?_]
      · rfl
      · cases trees with
        | nil => cases h
        | cons other others => simpa [List.getLast?_cons] using h

/-! ## The access modifier -/

/-- The modifier as the parser reads it. -/
def ModifierTree.toModifier (tree : ModifierTree) : AccessModifier :=
  ⟨tree.keyword.level, tree.setter.isSome, span tree.yield tree.yield_ne_nil⟩

/-- A tree and the parser agree on the level that a modifier leaves. -/
theorem ModifierTree.access_toModifier (tree : ModifierTree) :
    tree.toModifier.access = tree.access := by
  obtain ⟨keyword, setter⟩ := tree
  cases setter <;> rfl

/-- A tree and the parser agree on whether a modifier is rejected. -/
theorem ModifierTree.diagnostics_toModifier (tree : ModifierTree) :
    tree.toModifier.diagnostics = tree.rejection?.toList := by
  obtain ⟨keyword, setter⟩ := tree
  cases setter <;> rfl

/-- What follows a modifier, or stands in its place, does not continue it. -/
def ModifierEndsBefore (tree : Option ModifierTree) (rest : List Terminal) : Prop :=
  match tree with
  | none => ¬ Begins (·.accessLevel?.isSome) rest
  | some tree => tree.setter = none → ¬ Begins (·.isPunctuator .leftParen) rest

/-- What the rule for the modifier reads is the yield of a tree. -/
theorem exists_tree_of_accessModifier {m : Option AccessModifier}
    (h : accessModifier terminals = .done m rest) :
    ∃ tree : Option ModifierTree,
      terminals = (tree.map ModifierTree.yield).getD [] ++ rest ∧
        m = tree.map ModifierTree.toModifier ∧ ModifierEndsBefore tree rest := by
  unfold accessModifier at h
  split at h
  · cases h
    exact ⟨none, rfl, rfl, not_begins_nil _⟩
  · rename_i t ts
    split at h
    · rename_i hlevel
      cases h
      exact ⟨none, rfl, rfl, by simp [ModifierEndsBefore, hlevel]⟩
    · rename_i level hlevel
      split at h
      · cases h
        exact ⟨some ⟨⟨t, level, hlevel⟩, none⟩, rfl, rfl, fun _ => not_begins_nil _⟩
      · rename_i u us
        split at h
        · rename_i hopen
          simp only [Reading.andThen_eq_done_iff, Reading.map_eq_done_iff, token_eq_done_iff] at h
          obtain ⟨_, _, ⟨word, hword, rfl, rfl⟩, _, ⟨close, hclose, rfl, rfl⟩, rfl⟩ := h
          exact ⟨some ⟨⟨t, level, hlevel⟩, some ⟨⟨u, hopen⟩, ⟨word, hword⟩, ⟨close, hclose⟩⟩⟩,
            rfl, rfl, fun hnone => by cases hnone⟩
        · rename_i hopen
          cases h
          exact ⟨some ⟨⟨t, level, hlevel⟩, none⟩, rfl, rfl, fun _ => by simpa using hopen⟩

/-- The yield of a tree is read as the modifier that it derives. -/
theorem accessModifier_of_tree {tree : Option ModifierTree} (hends : ModifierEndsBefore tree rest) :
    accessModifier ((tree.map ModifierTree.yield).getD [] ++ rest) =
      .done (tree.map ModifierTree.toModifier) rest := by
  cases tree with
  | none =>
    cases rest with
    | nil => rfl
    | cons t ts =>
      have hlevel : t.accessLevel? = none := by simpa [ModifierEndsBefore] using hends
      simp [accessModifier, hlevel]
  | some tree =>
    obtain ⟨⟨t, level, hlevel⟩, setter⟩ := tree
    cases setter with
    | none =>
      cases rest with
      | nil =>
        simp only [Option.map_some, Option.getD_some, ModifierTree.yield, Option.map_none,
          Option.getD_none, List.cons_append, List.nil_append, accessModifier, hlevel]
        rfl
      | cons u us =>
        have hopen : u.isPunctuator .leftParen = false := by
          simpa [ModifierEndsBefore] using hends
        simp only [Option.map_some, Option.getD_some, ModifierTree.yield, Option.map_none,
          Option.getD_none, List.cons_append, List.nil_append, accessModifier, hlevel, hopen]
        rfl
    | some setter =>
      simp only [Option.map_some, Option.getD_some, ModifierTree.yield, SetterTree.yield,
        List.cons_append, List.nil_append, accessModifier, hlevel, setter.opening.isPunctuator,
        if_true, token, setter.word.isKeyword, setter.closing.isPunctuator, Reading.andThen,
        Reading.map]
      rfl

/-- **A modifier is read just where a tree of one stands**, or none where none does. -/
theorem accessModifier_eq_done_iff {m : Option AccessModifier} :
    accessModifier terminals = .done m rest ↔
      ∃ tree : Option ModifierTree,
        terminals = (tree.map ModifierTree.yield).getD [] ++ rest ∧
          m = tree.map ModifierTree.toModifier ∧ ModifierEndsBefore tree rest := by
  constructor
  · exact exists_tree_of_accessModifier
  · rintro ⟨tree, rfl, rfl, hends⟩
    exact accessModifier_of_tree hends

end DeclFront.Grammar
