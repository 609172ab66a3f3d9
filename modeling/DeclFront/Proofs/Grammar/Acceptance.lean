import DeclFront.Grammar.Outcome
import DeclFront.Proofs.Grammar.Declaration

/-!
# Proofs/Grammar/Acceptance — the parser accepts exactly its grammar

A sentence in front of any terminals that do not continue it is read as it derives, and what follows
is parsed as if it stood alone (`declarations_yield_append_of_endsBefore`); terminals that parse
without a failure are the yield of a sentence (`exists_sentence_of_failures_eq_nil`).
-/

namespace DeclFront.Grammar

variable {rest : List Terminal} {stop : Location}

/-! ## Where items begin -/

/-- A declaration begins with `@` or a keyword: with no punctuator but the sign. -/
theorem DeclarationTree.yield_eq_cons (tree : DeclarationTree) :
    ∃ t ts, tree.yield = t :: ts ∧ ∀ p ≠ Punctuator.atSign, t.isPunctuator p = false := by
  obtain ⟨attributes, modifier, body⟩ := tree
  cases attributes with
  | nil =>
    obtain ⟨t, ts, k, hyield, hk⟩ := headRest_eq_cons modifier body []
    rw [List.append_nil] at hyield
    exact ⟨t, ts, hyield, fun p _ => isPunctuator_of_kind_eq_keyword hk p⟩
  | cons first others =>
    exact ⟨_, _, rfl, fun p hp => isPunctuator_of_ne first.sign.isPunctuator hp.symm⟩

theorem Sentence.yield_cons (item : ItemTree) (sentence : Sentence) :
    Sentence.yield (item :: sentence) = item.yield ++ sentence.yield := rfl

/-- No item continues an import in front of it. -/
theorem ItemTree.not_begins_period (item : ItemTree) (rest : List Terminal) :
    ¬ Begins (·.isPunctuator .period) (item.yield ++ rest) := by
  cases item with
  | declaration tree =>
    obtain ⟨t, ts, hyield, ht⟩ := tree.yield_eq_cons
    rw [ItemTree.yield, hyield, List.cons_append, begins_cons_iff, ht _ (by decide)]
    simp
  | semicolon mark =>
    intro h
    exact Bool.eq_false_iff.1 (isPunctuator_of_ne mark.isPunctuator (by decide))
      (begins_cons_iff.1 h)

/-- No sentence begins with a point, so none continues an import in front of it. -/
theorem Sentence.not_begins_period (sentence : Sentence)
    (hrest : ¬ Begins (·.isPunctuator .period) rest) :
    ¬ Begins (·.isPunctuator .period) (sentence.yield ++ rest) := by
  cases sentence with
  | nil => exact hrest
  | cons item sentence =>
    rw [Sentence.yield_cons, List.append_assoc]
    exact item.not_begins_period _

/-- Only a point can continue a body. -/
theorem BodyTree.endsBefore_of_not_begins (tree : BodyTree)
    (hrest : ¬ Begins (·.isPunctuator .period) rest) : tree.EndsBefore rest := by
  cases tree with
  | enumeration _ => exact trivial
  | importing _ => exact hrest

/-! ## Sentences are accepted -/

/-- Puts what a sentence derives in front of an outcome. -/
def Sentence.prepend (sentence : Sentence) (outcome : Outcome) : Outcome :=
  ⟨⟨sentence.declarations ++ outcome.tree.declarations⟩,
    ⟨sentence.diagnostics ++ outcome.diagnostics.diagnostics⟩, outcome.failures⟩

/-- One step of parsing, at a declaration. -/
theorem declarations_yield_append_of_tree (tree : DeclarationTree)
    (hrest : tree.body.EndsBefore rest) :
    declarations stop (tree.yield ++ rest) =
      .diagnose tree.rejection?.toList (.declare tree.toDeclaration (declarations stop rest)) := by
  obtain ⟨t, ts, hyield, ht⟩ := tree.yield_eq_cons
  have h := declaration_of_tree tree hrest
  rw [hyield, List.cons_append] at h ⊢
  rw [declarations_of_done (ht _ (by decide)) (by rw [h]), h]

/-- What follows the sentence does not continue it: no point behind an import at its end. -/
def Sentence.EndsBefore (sentence : Sentence) (rest : List Terminal) : Prop :=
  ∀ tree ∈ sentence.getLast?.bind ItemTree.declaration?, tree.body.EndsBefore rest

/-- Whether a sentence ends there depends on the next terminal alone. -/
theorem Sentence.EndsBefore.congr {sentence : Sentence} {ts : List Terminal}
    (h : Begins (·.isPunctuator .period) rest → Begins (·.isPunctuator .period) ts)
    (hts : sentence.EndsBefore ts) : sentence.EndsBefore rest := by
  intro tree htree
  have htree := hts tree htree
  rcases hbody : tree.body with body | body
  · exact trivial
  · rw [hbody] at htree
    exact fun hrest => htree (h hrest)

theorem Sentence.endsBefore_nil (rest : List Terminal) : EndsBefore [] rest :=
  fun tree htree => absurd htree (Option.not_mem_none tree)

/-- In front of a sentence with an item, another item does not matter. -/
theorem Sentence.EndsBefore.cons {item : ItemTree} {sentence : Sentence}
    (h : sentence.EndsBefore rest)
    (hitem : sentence = [] → ∀ tree ∈ item.declaration?, tree.body.EndsBefore rest) :
    EndsBefore (item :: sentence) rest := by
  rcases sentence with _ | ⟨next, sentence⟩
  · exact hitem rfl
  · rwa [EndsBefore, List.getLast?_cons_cons]

/-- A part of a sentence is followed by no more than an item or what follows the sentence. -/
theorem Sentence.EndsBefore.of_cons {tree : DeclarationTree} {sentence : Sentence}
    (h : EndsBefore (.declaration tree :: sentence) rest) :
    tree.body.EndsBefore (sentence.yield ++ rest) ∧ sentence.EndsBefore rest := by
  rcases sentence with _ | ⟨item, sentence⟩
  · exact ⟨h tree rfl, Sentence.endsBefore_nil rest⟩
  · rw [EndsBefore, List.getLast?_cons_cons] at h
    refine ⟨tree.body.endsBefore_of_not_begins ?_, h⟩
    rw [Sentence.yield_cons, List.append_assoc]
    exact item.not_begins_period _

/-- **A sentence is read as it derives**, and what follows is parsed as if it stood alone. -/
theorem declarations_yield_append_of_endsBefore (sentence : Sentence)
    (hrest : sentence.EndsBefore rest) :
    declarations stop (sentence.yield ++ rest) = sentence.prepend (declarations stop rest) := by
  induction sentence with
  | nil => rfl
  | cons item sentence ih =>
    rw [Sentence.yield_cons, List.append_assoc]
    cases item with
    | declaration tree =>
      obtain ⟨hbody, hsentence⟩ := hrest.of_cons
      rw [ItemTree.yield, declarations_yield_append_of_tree tree hbody, ih hsentence]
      cases h : tree.rejection? <;>
        simp [Sentence.prepend, Sentence.declarations, Sentence.diagnostics, Sentence.trees,
          ItemTree.declaration?, Outcome.diagnose, Outcome.declare, h]
    | semicolon mark =>
      refine (declarations_of_semicolon mark.isPunctuator).trans (ih fun tree htree => ?_)
      rcases sentence with _ | ⟨item, sentence⟩
      · exact absurd htree (Option.not_mem_none tree)
      · exact hrest tree (by rwa [List.getLast?_cons_cons])

/-- **What a sentence says comes in front of what the rest says.** -/
theorem declarations_yield_append (sentence : Sentence)
    (hrest : ¬ Begins (·.isPunctuator .period) rest) :
    declarations stop (sentence.yield ++ rest) = sentence.prepend (declarations stop rest) :=
  declarations_yield_append_of_endsBefore sentence
    fun tree _ => tree.body.endsBefore_of_not_begins hrest

/-! ## Nothing else is -/

/-- **Terminals that parse without a failure are the yield of a sentence.** -/
theorem exists_sentence_of_failures_eq_nil {terminals : List Terminal}
    (h : (declarations stop terminals).failures = []) :
    ∃ sentence : Sentence, sentence.yield = terminals := by
  induction terminals using declarations_induction with
  | nil => exact ⟨[], rfl⟩
  | semicolon t ts hs ih =>
    rw [declarations_of_semicolon hs] at h
    obtain ⟨sentence, hsentence⟩ := ih h
    exact ⟨.semicolon ⟨t, hs⟩ :: sentence, congrArg (t :: ·) hsentence⟩
  | done t ts d rest hs hr ih =>
    rw [declarations_of_done hs hr] at h
    obtain ⟨sentence, rfl⟩ := ih h
    obtain ⟨tree, hyield, -, -⟩ := exists_tree_of_declaration hr
    exact ⟨.declaration tree :: sentence, hyield.symm⟩
  | failed t ts cause rest hs hr ih =>
    rw [declarations_of_failed hs hr] at h
    cases h

end DeclFront.Grammar
