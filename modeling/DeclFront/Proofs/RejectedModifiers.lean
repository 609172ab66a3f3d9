import DeclFront.Proofs.Grammar.Loop
import DeclFront.Proofs.StandAlone

/-!
# Proofs/RejectedModifiers — rejected modifiers and access levels match

    private ( set ) enum E { }
    ──────┬────────          ┆    one diagnostic, about these four tokens
    ──────┴──────────────────┘    one declaration, with the implied access

All diagnostics of a parse reject modifiers with `(set)`, in order.  One that lies inside a
declaration comes from the modifier of that declaration, which then gives no access level; without
one inside, the declaration has the level that its head asks for.  Any other comes from an attempt
that failed behind its modifier, and the failure is reported too
(`exists_failed_of_not_encloses`).
-/

namespace DeclFront

open Grammar

/-! ## Rejected modifiers as tokens -/

/-- An access keyword with `(set)` behind it. -/
structure RejectedModifier where
  level : AccessLevel
  keyword : Token
  opening : Token
  word : Token
  closing : Token
  accessLevel?_eq : keyword.kind.accessLevel? = some level
  opening_kind : opening.kind = .punctuator .leftParen
  isKeyword : word.kind.isKeyword "set" = true
  closing_kind : closing.kind = .punctuator .rightParen

namespace RejectedModifier

/-- The four tokens of a rejected modifier, in order. -/
def tokens (m : RejectedModifier) : List Token := [m.keyword, m.opening, m.word, m.closing]

/-- The error about the modifier, which names its keyword. -/
def diagnostic (m : RejectedModifier) : Diagnostic :=
  ⟨.error, "'" ++ m.keyword.spelling ++ "' modifier cannot be applied to this declaration.",
    m.keyword.range.through m.closing.range⟩

end RejectedModifier

/-- A pool of errors has errors just when it is not empty. -/
theorem DiagnosticPool.hasErrors_iff_of_forall {pool : DiagnosticPool}
    (h : ∀ x ∈ pool.diagnostics, x.isError = true) :
    pool.hasErrors = true ↔ pool.diagnostics ≠ [] := by
  rw [hasErrors, List.any_eq_true]
  constructor
  · rintro ⟨x, hx, -⟩
    exact List.ne_nil_of_mem hx
  · intro hne
    obtain ⟨x, hx⟩ := List.exists_mem_of_ne_nil _ hne
    exact ⟨x, hx, h x hx⟩

namespace Grammar

variable {stop : Location} {terminals : List Terminal}

/-- The keyword of an access modifier spells its level. -/
theorem AccessLeaf.spelling_eq (leaf : AccessLeaf) :
    leaf.terminal.token.spelling = leaf.level.text := by
  obtain ⟨k, hk⟩ := leaf.exists_keyword
  have hlevel := leaf.accessLevel?_eq
  rw [Terminal.accessLevel?, hk] at hlevel
  rw [Token.spelling, hk, AccessLevel.text_of_ofWord? hlevel]
  rfl

/-- What a modifier earns is the error about its four tokens. -/
theorem ModifierTree.exists_rejected {m : ModifierTree} {x : Diagnostic} (h : x ∈ m.rejection?) :
    ∃ rejected : RejectedModifier,
      rejected.tokens = m.yield.map Terminal.token ∧ x = rejected.diagnostic := by
  obtain ⟨keyword, setter⟩ := m
  obtain ⟨setter, rfl, rfl⟩ := Option.map_eq_some_iff.1 h
  refine ⟨⟨keyword.level, keyword.terminal.token, setter.opening.terminal.token,
    setter.word.terminal.token, setter.closing.terminal.token, keyword.accessLevel?_eq,
    setter.opening.kind_eq, setter.word.isKeyword, setter.closing.kind_eq⟩, rfl, ?_⟩
  rw [RejectedModifier.diagnostic, keyword.spelling_eq]
  rfl

/-! ## Diagnostics in order -/

/-- **Stretches are diagnosed in order.** -/
theorem pairwise_precedes_rejections {stretches : List Stretch}
    (h : InOrder (stretches.flatMap Stretch.yield)) :
    (stretches.filterMap Stretch.rejection?).Pairwise fun x y => x.range.Precedes y.range := by
  refine (List.pairwise_flatMap.1 h.pairwise).2.filterMap _ ?_
  intro first second horder x hx y hy
  obtain ⟨m, hm, hx⟩ := Option.bind_eq_some_iff.1 hx
  obtain ⟨n, hn, hy⟩ := Option.bind_eq_some_iff.1 hy
  rw [m.range_eq_of_rejection hx, n.range_eq_of_rejection hy]
  exact horder _ ((first.modifier_infix m hm).subset (List.getLast_mem m.yield_ne_nil)) _
    ((second.modifier_infix n hn).subset (List.head_mem n.yield_ne_nil))

/-! ## Declarations and their diagnostics -/

/-- The modifier of a declaration gives it no access just when it is rejected. -/
theorem DeclarationTree.access_eq (tree : DeclarationTree) :
    tree.access = match tree.rejection? with
      | none => (tree.modifier.map (·.keyword.level)).getD .implied
      | some _ => .implied := by
  obtain ⟨attributes, _ | ⟨keyword, _ | setter⟩, body⟩ := tree <;> rfl

/-- **The diagnostics inside a declaration of a parse are those of its own modifier.** -/
theorem exists_tree_with_rejection (hterminals : InOrder terminals) {d : Declaration}
    (hd : d ∈ (declarations stop terminals).tree.declarations) :
    ∃ tree : DeclarationTree, tree.yield <:+: terminals ∧ d = tree.toDeclaration ∧
      (declarations stop terminals).diagnostics.diagnostics.filter (d.range.Encloses ·.range) =
        tree.rejection?.toList := by
  obtain ⟨stretches, rfl, houtcome⟩ := exists_stretches stop terminals
  rw [houtcome] at hd ⊢
  obtain ⟨tree, htree, rfl⟩ := List.mem_map.1 hd
  refine ⟨tree, Stretch.yield_infix_of_mem htree, rfl, ?_⟩
  obtain ⟨stretch, hstretch, hstretchTree⟩ := List.mem_filterMap.1 htree
  obtain rfl := Stretch.eq_of_tree?_eq_some hstretchTree
  obtain ⟨before, behind, rfl⟩ := List.append_of_mem hstretch
  exact filter_rejections hterminals

/-- **A diagnostic inside no declaration comes from an attempt that failed.** -/
theorem exists_failed_of_not_encloses (hterminals : InOrder terminals) {x : Diagnostic}
    (hx : x ∈ (declarations stop terminals).diagnostics.diagnostics)
    (hout : ∀ d ∈ (declarations stop terminals).tree.declarations, ¬ d.range.Encloses x.range) :
    ∃ added t ts cause rest, Reaches stop terminals added (t :: ts) ∧
      (declaration (t :: ts)).reading = .failed cause rest ∧
        x ∈ (declaration (t :: ts)).diagnostics ∧
          .ofCause stop cause ∈ (declarations stop terminals).failures := by
  obtain ⟨added, t, ts, h, hadded⟩ := (Reaches.ends stop terminals).exists_turn_of_mem
    (·.diagnostics.diagnostics) rfl (fun _ _ => rfl) hx
  rcases turn_cases stop t ts with
    ⟨-, hturn⟩ | ⟨-, ⟨d, rest, hread, hturn⟩ | ⟨cause, rest, hread, hturn⟩⟩
  · rw [hturn] at hadded
    cases hadded
  · -- The declaration that was read has the diagnostic inside.
    rw [hturn] at hadded
    obtain ⟨tree, hyield, rfl, hends⟩ := exists_tree_of_declaration hread
    rw [hyield, declaration_of_tree tree hends] at hadded
    have hsuffix := h.suffix
    rw [hyield] at hsuffix
    have horder := hterminals.sublist ((List.sublist_append_left _ _).trans hsuffix.sublist)
    have hd : tree.toDeclaration ∈ (declarations stop terminals).tree.declarations :=
      h.mem_of_turn (·.tree.declarations) (fun _ _ => rfl)
        (by rw [hturn]; exact List.mem_singleton_self _)
    exact absurd (tree.encloses_rejection horder (Option.mem_toList.1 hadded)) (hout _ hd)
  · rw [hturn] at hadded
    refine ⟨added, t, ts, cause, rest, h, hread, hadded, ?_⟩
    exact h.mem_of_turn Outcome.failures (fun _ _ => rfl)
      (by rw [hturn]; exact List.mem_singleton_self _)

end Grammar

namespace TokenStream

/-- The diagnostics of the parse that lie in a range. -/
def diagnosticsIn (s : TokenStream) (r : Range) : List Diagnostic :=
  s.parse.diagnostics.diagnostics.filter (r.Encloses ·.range)

/-- The diagnostics of the parse and the access levels of its declarations match. -/
structure RejectsModifiers (s : TokenStream) : Prop where
  /-- A diagnostic is the error about a modifier with `(set)` and covers its four tokens. -/
  exists_modifier : ∀ x ∈ s.parse.diagnostics.diagnostics, ∃ m : RejectedModifier,
    m.tokens <:+: s.significant ∧ s.significant.filter (x.range.Encloses ·.range) = m.tokens ∧
      x = m.diagnostic
  precedes : s.parse.diagnostics.diagnostics.Pairwise fun x y => x.range.Precedes y.range
  /-- A declaration has the access level that its head asks for, unless that is rejected inside. -/
  access_eq : ∀ d ∈ s.parse.tree.declarations, ∃ tree : DeclarationTree,
    tree.yield <:+: Terminal.ofTokens s.tokens ∧ d = tree.toDeclaration ∧
      (s.diagnosticsIn d.range).length ≤ 1 ∧
      (s.diagnosticsIn d.range ≠ [] → d.access = .implied) ∧
      (s.diagnosticsIn d.range = [] →
        d.access = (tree.modifier.map (·.keyword.level)).getD .implied)
  hasErrors_iff : s.parse.diagnostics.hasErrors = true ↔ s.parse.diagnostics.diagnostics ≠ []
  /-- A diagnostic inside no declaration was made by an attempt that failed further on. -/
  exists_failed : ∀ x ∈ s.parse.diagnostics.diagnostics,
    (∀ d ∈ s.parse.tree.declarations, ¬ d.range.Encloses x.range) →
      ∃ added t ts cause rest, Reaches s.stop (Terminal.ofTokens s.tokens) added (t :: ts) ∧
        (declaration (t :: ts)).reading = .failed cause rest ∧
          x ∈ (declaration (t :: ts)).diagnostics ∧ .ofCause s.stop cause ∈ s.parse.failures

/-- What a modifier of the stream earns covers the tokens of the modifier, and no others. -/
theorem exists_rejected_of_infix {s : TokenStream} {m : ModifierTree} {x : Diagnostic}
    (horder : InOrder (Terminal.ofTokens s.tokens)) (hm : m.yield <:+: Terminal.ofTokens s.tokens)
    (hx : x ∈ m.rejection?) :
    ∃ rejected : RejectedModifier, rejected.tokens <:+: s.significant ∧
      s.significant.filter (x.range.Encloses ·.range) = rejected.tokens ∧
        x = rejected.diagnostic := by
  obtain ⟨front, back, hsplit⟩ := hm
  rw [List.append_assoc] at hsplit
  have hfilter := (hsplit ▸ horder).filter_encloses_span m.yield_ne_nil
  rw [hsplit, ← m.range_eq_of_rejection hx] at hfilter
  obtain ⟨rejected, htokens, rfl⟩ := m.exists_rejected hx
  refine ⟨rejected, ?_, ?_, rfl⟩
  · rw [htokens, significant, ← Terminal.map_token_ofTokens, ← hsplit]
    exact ⟨front.map Terminal.token, back.map Terminal.token, by simp⟩
  · rw [htokens, significant, ← Terminal.map_token_ofTokens, List.filter_map, ← hfilter]
    rfl

/-- **Rejected modifiers and access levels match in every parse**, whether it fails or not. -/
theorem rejectsModifiers_ofText (path text : String) : (ofText path text).RejectsModifiers := by
  obtain ⟨stretches, hyield, houtcome⟩ :=
    exists_stretches (ofText path text).stop (Terminal.ofTokens (ofText path text).tokens)
  have hparse : (ofText path text).parse = Stretch.outcome stretches := houtcome
  have horder : InOrder (Terminal.ofTokens (ofText path text).tokens) :=
    inOrder_ofText path .first text.toList
  have hrejected : ∀ x ∈ (ofText path text).parse.diagnostics.diagnostics,
      ∃ m : RejectedModifier, m.tokens <:+: (ofText path text).significant ∧
        (ofText path text).significant.filter (x.range.Encloses ·.range) = m.tokens ∧
          x = m.diagnostic := by
    intro x hx
    rw [hparse] at hx
    obtain ⟨m, hm, hrejection⟩ := exists_modifier_of_mem_rejections hx
    exact exists_rejected_of_infix horder (hyield ▸ hm) hrejection
  refine ⟨hrejected, ?_, fun d hd => ?_, ?_, fun x => exists_failed_of_not_encloses horder⟩
  · rw [hparse]
    exact pairwise_precedes_rejections (hyield ▸ horder)
  · obtain ⟨tree, hinfix, rfl, hinside⟩ := exists_tree_with_rejection horder hd
    have hdiagnostics : (ofText path text).diagnosticsIn tree.toDeclaration.range =
        tree.rejection?.toList := hinside
    have haccess : tree.toDeclaration.access = tree.access := rfl
    refine ⟨tree, hinfix, rfl, ?_⟩
    rw [hdiagnostics, haccess, tree.access_eq]
    rcases tree.rejection? with _ | x <;> simp
  · refine DiagnosticPool.hasErrors_iff_of_forall fun x hx => ?_
    obtain ⟨m, -, -, rfl⟩ := hrejected x hx
    rfl

end TokenStream

end DeclFront
