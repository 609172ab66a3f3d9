import DeclFront.Proofs.Grammar.Acceptance
import DeclFront.Proofs.Grammar.Suffix

/-!
# Proofs/Grammar/Origin — a parse, stretch by stretch

Parsing cuts the terminals into *stretches*, one behind the other, and its outcome is what they give
in order (`exists_stretches`).  A stretch is the yield of a declaration or of a semicolon, or all
that a failed attempt passes over, up to where parsing goes on.  A diagnostic is about a modifier
that stands in the stretch it comes from.

Hence each declaration of a parse, failing or not, derives from a stretch of the terminals
(`exists_tree_of_mem_declarations`).
-/

namespace DeclFront.Grammar

variable {stop : Location} {t : Terminal} {ts rest : List Terminal}

/-! ## Stretches -/

/-- An attempt at a declaration that fails: the terminals up to where parsing goes on, and the
modifier, if one was read before the failure. -/
structure FailedAttempt where
  terminals : List Terminal
  modifier : Option ModifierTree
  failure : Failure
  terminals_ne_nil : terminals ≠ []
  modifier_infix : ∀ m ∈ modifier, m.yield <:+: terminals

/-- Terminals that parsing passes over at one go. -/
inductive Stretch where
  /-- A declaration that is read, or a semicolon. -/
  | item (tree : ItemTree)
  | failed (attempt : FailedAttempt)

namespace Stretch

/-- The terminals that a stretch has taken. -/
def yield : Stretch → List Terminal
  | item tree => tree.yield
  | failed attempt => attempt.terminals

/-- The derivation of the declaration that is read. -/
def tree? : Stretch → Option DeclarationTree
  | item tree => tree.declaration?
  | failed _ => none

/-- The modifier that is read, also when the declaration fails further on. -/
def modifier? : Stretch → Option ModifierTree
  | item tree => tree.declaration?.bind DeclarationTree.modifier
  | failed attempt => attempt.modifier

/-- The diagnostic of a stretch whose modifier is rejected. -/
def rejection? (stretch : Stretch) : Option Diagnostic :=
  stretch.modifier?.bind ModifierTree.rejection?

/-- The failure that a stretch ends with. -/
def failure? : Stretch → Option Failure
  | item _ => none
  | failed attempt => some attempt.failure

/-- What stretches give, in order. -/
def outcome (stretches : List Stretch) : Outcome :=
  ⟨⟨(stretches.filterMap tree?).map DeclarationTree.toDeclaration⟩,
    ⟨stretches.filterMap rejection?⟩, stretches.filterMap failure?⟩

/-- A declaration gives itself, and the diagnostic of its modifier. -/
theorem outcome_declaration (tree : DeclarationTree) (stretches : List Stretch) :
    outcome (item (.declaration tree) :: stretches) =
      .diagnose tree.rejection?.toList (.declare tree.toDeclaration (outcome stretches)) := by
  have hrejection : (item (.declaration tree)).rejection? = tree.rejection? := rfl
  rw [outcome, List.filterMap_cons, List.filterMap_cons, List.filterMap_cons, hrejection]
  rcases tree.rejection? with _ | x <;> rfl

/-- A failed attempt gives its failure, and the diagnostic of the modifier that it has read. -/
theorem outcome_failed (attempt : FailedAttempt) (stretches : List Stretch) :
    outcome (failed attempt :: stretches) =
      .diagnose (attempt.modifier.bind ModifierTree.rejection?).toList
        (.fail attempt.failure (outcome stretches)) := by
  have hrejection : (failed attempt).rejection? =
      attempt.modifier.bind ModifierTree.rejection? := rfl
  rw [outcome, List.filterMap_cons, List.filterMap_cons, List.filterMap_cons, hrejection]
  rcases attempt.modifier.bind ModifierTree.rejection? with _ | x <;> rfl

end Stretch

/-- The modifier of a declaration stands in it. -/
theorem DeclarationTree.modifier_infix (tree : DeclarationTree) :
    ∀ m ∈ tree.modifier, m.yield <:+: tree.yield := by
  intro m hm
  rw [yield, headYield, Option.mem_def.1 hm, List.append_assoc]
  exact ⟨_, tree.body.yield, List.append_assoc _ _ _⟩

theorem Stretch.modifier_infix (stretch : Stretch) :
    ∀ m ∈ stretch.modifier?, m.yield <:+: stretch.yield := by
  rcases stretch with (tree | mark) | attempt
  · exact tree.modifier_infix
  · exact fun m hm => absurd hm (Option.not_mem_none m)
  · exact attempt.modifier_infix

theorem Stretch.eq_of_tree?_eq_some {stretch : Stretch} {tree : DeclarationTree}
    (h : stretch.tree? = some tree) : stretch = item (.declaration tree) := by
  rcases stretch with (_ | _) | _
  · exact congrArg (item ∘ .declaration) (Option.some.inj h)
  · cases h
  · cases h

/-- The declarations of stretches are read from their terminals. -/
theorem Stretch.yield_infix_of_mem {stretches : List Stretch} {tree : DeclarationTree}
    (h : tree ∈ stretches.filterMap tree?) : tree.yield <:+: stretches.flatMap yield := by
  obtain ⟨stretch, hstretch, htree⟩ := List.mem_filterMap.1 h
  obtain rfl := eq_of_tree?_eq_some htree
  rw [List.flatMap_def]
  exact List.infix_of_mem_flatten (List.mem_map_of_mem hstretch)

/-- What a modifier earns is about its terminals. -/
theorem ModifierTree.range_eq_of_rejection {m : ModifierTree} {x : Diagnostic}
    (h : x ∈ m.rejection?) : x.range = span m.yield m.yield_ne_nil := by
  obtain ⟨setter, -, rfl⟩ := Option.map_eq_some_iff.1 h
  rfl

/-- A diagnostic of some stretches is what a modifier in them earns. -/
theorem exists_modifier_of_mem_rejections {stretches : List Stretch} {x : Diagnostic}
    (h : x ∈ stretches.filterMap Stretch.rejection?) :
    ∃ m : ModifierTree, m.yield <:+: stretches.flatMap Stretch.yield ∧ x ∈ m.rejection? := by
  obtain ⟨stretch, hstretch, hx⟩ := List.mem_filterMap.1 h
  obtain ⟨m, hm, hrejection⟩ := Option.bind_eq_some_iff.1 hx
  refine ⟨m, (stretch.modifier_infix m hm).trans ?_, hrejection⟩
  rw [List.flatMap_def]
  exact List.infix_of_mem_flatten (List.mem_map_of_mem hstretch)

/-! ## Failed attempts -/

/-- A failed attempt passes over a terminal at least, and over the modifier that it diagnoses. -/
theorem exists_attempt_of_failed {cause : Cause}
    (h : (declaration (t :: ts)).reading = .failed cause rest) (failure : Failure) :
    ∃ attempt : FailedAttempt, t :: ts = attempt.terminals ++ resume ts rest ∧
      (declaration (t :: ts)).diagnostics =
        (attempt.modifier.bind ModifierTree.rejection?).toList ∧ attempt.failure = failure := by
  have hrest := declaration_rest_suffix (t :: ts)
  rw [h, Reading.rest_failed] at hrest
  obtain ⟨others, hothers⟩ := resume_suffix_others hrest
  obtain ⟨passed, hne, hpassed⟩ : ∃ passed ≠ [], passed ++ resume ts rest = t :: ts :=
    ⟨t :: others, List.cons_ne_nil _ _, congrArg (t :: ·) hothers⟩
  unfold declaration at h ⊢
  split at h
  · rename_i head middle hhead
    have hafter : declarationAfter head middle = .failed cause rest := h
    have hmiddle := declarationAfter_rest_suffix head middle
    rw [hafter, Reading.rest_failed] at hmiddle
    obtain ⟨_, _, hattributes, hbehind⟩ := Reading.andThen_eq_done_iff.1 hhead
    obtain ⟨_, hmodifier, rfl⟩ := Reading.map_eq_done_iff.1 hbehind
    obtain ⟨trees, hts, -⟩ := attributes_eq_done_iff.1 hattributes
    obtain ⟨modifier, rfl, rfl, -⟩ := accessModifier_eq_done_iff.1 hmodifier
    refine ⟨⟨passed, modifier, failure, hne, ?_⟩, hpassed.symm, ?_, rfl⟩
    · rintro m rfl
      -- With a modifier read, parsing goes on behind it.
      have hlength : rest.length ≤ ts.length := by
        have hle := hmiddle.length_le
        have hlt := congrArg List.length hts
        simp only [Option.map_some, Option.getD_some, ModifierTree.yield, List.length_append,
          List.length_cons] at hle hlt
        omega
      obtain ⟨skipped, hskipped⟩ := (nextStart_suffix 0 rest).trans hmiddle
      rw [resume, if_pos hlength, hts, ← hskipped] at hpassed
      have heq : passed = trees.flatMap AttributeTree.yield ++ (m.yield ++ skipped) :=
        List.append_cancel_right (by rw [hpassed]; simp)
      rw [heq, ← List.append_assoc]
      exact List.infix_append _ _ _
    · rcases modifier with _ | m
      · rfl
      · simp [DeclarationHead.diagnostics, m.diagnostics_toModifier]
  · exact ⟨⟨passed, none, failure, hne, fun m hm => absurd hm (Option.not_mem_none m)⟩,
      hpassed.symm, rfl, rfl⟩

/-! ## Whole parses -/

/-- **Parsing cuts the terminals into stretches**, and its outcome is what they give. -/
theorem exists_stretches (stop : Location) (terminals : List Terminal) :
    ∃ stretches : List Stretch, terminals = stretches.flatMap Stretch.yield ∧
      declarations stop terminals = Stretch.outcome stretches := by
  induction terminals using declarations_induction with
  | nil =>
    refine ⟨[], rfl, ?_⟩
    rw [declarations]
    rfl
  | semicolon t ts hs ih =>
    obtain ⟨stretches, hts, houtcome⟩ := ih
    refine ⟨.item (.semicolon ⟨t, hs⟩) :: stretches, congrArg (t :: ·) hts, ?_⟩
    rw [declarations_of_semicolon hs, houtcome]
    rfl
  | done t ts d rest hs hr ih =>
    obtain ⟨stretches, hrest, houtcome⟩ := ih
    obtain ⟨tree, hyield, rfl, hends⟩ := exists_tree_of_declaration hr
    refine ⟨.item (.declaration tree) :: stretches, ?_, ?_⟩
    · rw [hyield, List.flatMap_cons, ← hrest]
      rfl
    · rw [hyield, declarations_yield_append_of_tree tree hends, houtcome,
        Stretch.outcome_declaration]
  | failed t ts cause rest hs hr ih =>
    obtain ⟨stretches, hrest, houtcome⟩ := ih
    obtain ⟨attempt, hattempt, hdiagnostics, hfailure⟩ :=
      exists_attempt_of_failed hr (.ofCause stop cause)
    refine ⟨.failed attempt :: stretches, ?_, ?_⟩
    · rw [List.flatMap_cons, ← hrest]
      exact hattempt
    · rw [declarations_of_failed hs hr, houtcome, hdiagnostics, ← hfailure,
        Stretch.outcome_failed]

/-- **Each declaration of a parse derives from a stretch of the terminals.** -/
theorem exists_tree_of_mem_declarations {terminals : List Terminal} {d : Declaration}
    (h : d ∈ (declarations stop terminals).tree.declarations) :
    ∃ tree : DeclarationTree, tree.yield <:+: terminals ∧ d = tree.toDeclaration := by
  obtain ⟨stretches, rfl, houtcome⟩ := exists_stretches stop terminals
  rw [houtcome] at h
  obtain ⟨tree, htree, rfl⟩ := List.mem_map.1 h
  exact ⟨tree, Stretch.yield_infix_of_mem htree, rfl⟩

end DeclFront.Grammar
