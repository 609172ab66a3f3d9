import DeclFront.Proofs.Grammar.Head
import DeclFront.Proofs.Grammar.Relocation
import DeclFront.Proofs.Printing.Reading

/-!
# Proofs/Printing/Head — the head of a declaration, read off its text description

A clause of arguments is kept as it was written, so it is read back as the same clause somewhere
else (`ClauseTree.ofKinds_kinds_append`).  An attribute fails only by its name, and the modifier
never does: it has no `(set)`.
-/

namespace DeclFront.Grammar

open Terminal TokenKind

variable {lead : List TokenKind}

/-! ## Attributes -/

theorem Balanced.relocate {f : Location → Location} {ts : List Terminal} (h : Balanced ts) :
    Balanced (ts.map (Terminal.relocate f)) := by
  induction h with
  | nil => exact .nil
  | other hopen hclose _ ih => exact .other hopen hclose ih
  | nested hopen _ hclose _ ihinner ihts =>
    rw [List.map_cons, List.map_append, List.map_cons]
    exact .nested hopen ihinner hclose ihts

namespace ClauseTree

/-- The clause somewhere else. -/
def relocate (f : Location → Location) (clause : ClauseTree) : ClauseTree where
  opening := ⟨clause.opening.terminal.relocate f, clause.opening.isPunctuator⟩
  isAdjacent := by rw [Terminal.isAdjacent_relocate, clause.isAdjacent]
  inner := clause.inner.map (Terminal.relocate f)
  balanced := clause.balanced.relocate
  closing := ⟨clause.closing.terminal.relocate f, clause.closing.isPunctuator⟩

theorem yield_relocate (f : Location → Location) (clause : ClauseTree) :
    (clause.relocate f).yield = clause.yield.map (Terminal.relocate f) := by
  rw [yield, yield, List.map_cons, List.map_append]
  rfl

/-- A clause has the same text wherever it stands. -/
theorem text_relocate (f : Location → Location) (clause : ClauseTree) :
    (clause.relocate f).text = clause.text := by
  rw [text, yield_relocate, List.map_map, text]
  congr 2
  funext t
  exact t.spelling_relocate f

/-- The kinds of a regular clause are the clause, standing nowhere. -/
theorem ofKinds_kinds_append {clause : ClauseTree} (h : ∀ t ∈ clause.yield, t.IsRegular)
    (ks : List TokenKind) :
    ofKinds (clause.kinds ++ ks) = (clause.relocate .forget).yield ++ ofKinds ks := by
  have htokens : clause.kinds.map Token.bare =
      Terminal.tokens (clause.yield.map (Terminal.relocate .forget)) := by
    rw [kinds, List.map_map, Terminal.tokens, Terminal.tokens, List.map_flatMap, List.flatMap_map]
    congr 1
    funext t
    exact List.map_append
  have hregular : ∀ t ∈ clause.yield.map (Terminal.relocate .forget), t.IsRegular := by
    rw [List.forall_mem_map]
    intro t ht
    refine ⟨?_, (h t ht).2⟩
    rw [Terminal.relocate, List.forall_mem_map]
    exact (h t ht).1
  rw [ofKinds, List.map_append, htokens, Terminal.ofTokens_tokens_append hregular, yield_relocate]
  rfl

end ClauseTree

/-- A terminal with trivia in front is not adjacent. -/
theorem not_begins_isAdjacent {k : TokenKind} (hk : k.isTrivia = true) (ks : List TokenKind) :
    ¬ Begins Terminal.isAdjacent (ofKinds (k :: ks)) := by
  have hbare : (Token.bare k).isTrivia = true := hk
  rw [ofKinds, List.map_cons, Terminal.ofTokens_cons, Terminal.prepend.eq_def, if_pos hbare]
  rcases Terminal.ofTokens (ks.map Token.bare) with _ | ⟨t, ts⟩
  · exact not_begins_nil _
  · rw [begins_cons_iff]
    exact Bool.false_ne_true

/-- A printed attribute is read back, unless its name is reserved. -/
theorem attributeAfterSign_ofKinds {a : Attribute} (ha : a.IsPrintable) (ks : List TokenKind) :
    (attributeAfterSign (.bare (.punctuator .atSign))
      (ofKinds (ofWord a.name :: (TokenKind.ofText (a.arguments.getD "") ++
        .control .space :: ks)))).DecidedBy (¬ IsReserved a.name) (a.relocate .forget)
          (ofKinds (.control .space :: ks)) := by
  obtain ⟨n, arguments, range⟩ := a
  have hname := name_ofKinds .attributeName (List.forall_mem_nil _) n
    (TokenKind.ofText (arguments.getD "") ++ .control .space :: ks)
  refine (hname.andThen ?_).congr (iff_of_eq (and_true _))
  rcases arguments with _ | text
  · have hadjacent := not_begins_isAdjacent (k := .control .space) rfl ks
    rw [Option.getD_none, TokenKind.ofText_empty, List.nil_append]
    rcases hts : ofKinds (.control .space :: ks) with _ | ⟨t, ts⟩
    · exact Reading.decidedBy_done _ _
    · rw [hts, begins_cons_iff] at hadjacent
      simp only [hadjacent, Bool.false_and, Bool.false_eq_true, if_false]
      exact Reading.decidedBy_done _ _
  · obtain ⟨clause, hclause, rfl⟩ := ha.arguments text rfl
    rw [Option.getD_some, hclause.ofText_text, ClauseTree.ofKinds_kinds_append hclause.regular,
      ← clause.text_relocate .forget]
    have hclosing : (clause.relocate .forget).closing.terminal.range = .nowhere := rfl
    generalize clause.relocate .forget = moved at hclosing ⊢
    have hread : ArgumentClause.read 1
        (moved.inner ++ moved.closing.terminal :: ofKinds (.control .space :: ks)) =
          some ⟨moved.inner, moved.closing.terminal, ofKinds (.control .space :: ks)⟩ :=
      ArgumentClause.read_one_eq_some_iff.2 ⟨moved.balanced, moved.closing.isPunctuator, rfl⟩
    rw [ClauseTree.yield, List.cons_append, List.append_assoc, List.singleton_append]
    simp only [moved.isAdjacent, moved.opening.isPunctuator, Bool.and_self, if_true, hread]
    rw [← moved.text_eq, hclosing]
    exact Reading.decidedBy_done _ _

/-! ## The head

The rules for attributes and for the modifier may read nothing, and then leave the trivia that stood
in front of them in front of the keyword. -/

/-- The keyword of a declaration. -/
def IsBodyKeyword (k : TokenKind) : Prop := k = ofWord "enum" ∨ k = ofWord "import"

theorem IsBodyKeyword.isTrivia {k : TokenKind} (hk : IsBodyKeyword k) : k.isTrivia = false := by
  rcases hk with rfl | rfl <;> exact isTrivia_ofWord _

theorem IsBodyKeyword.isPunctuator {k : TokenKind} (hk : IsBodyKeyword k) (p : Punctuator) :
    k.isPunctuator p = false := by
  rcases hk with rfl | rfl <;> exact isPunctuator_ofWord _ p

/-- **Printed attributes are read back**, unless one has a reserved name. -/
theorem attributes_ofKinds {as : List Attribute} (has : ∀ a ∈ as, a.IsPrintable)
    (hlead : ∀ k ∈ lead, k.isTrivia = true) {k : TokenKind} (hk : k.isTrivia = false)
    (hsign : k.isPunctuator .atSign = false) (ks : List TokenKind) :
    ∃ behind : List TokenKind, (∀ k ∈ behind, k.isTrivia = true) ∧
      (attributes (ofKinds (lead ++
        (as.flatMap (fun a => a.kinds ++ [.control .space]) ++ k :: ks)))).DecidedBy
          (∀ a ∈ as, ¬ IsReserved a.name) (as.map (Attribute.relocate .forget))
            (ofKinds (behind ++ k :: ks)) := by
  induction as generalizing lead with
  | nil =>
    refine ⟨lead, hlead, .inl ⟨List.forall_mem_nil _, ?_⟩⟩
    rw [List.flatMap_nil, List.nil_append, ofKinds_append_cons hlead hk]
    exact attributes_of_other hsign
  | cons a as ih =>
    rw [List.forall_mem_cons] at has
    obtain ⟨behind, hbehind, hrest⟩ := ih has.2 isTrivia_space
    refine ⟨behind, hbehind, ?_⟩
    rw [List.flatMap_cons, Attribute.kinds, List.cons_append, List.cons_append, List.cons_append,
      ofKinds_append_cons hlead rfl]
    simp only [List.cons_append, List.append_assoc, List.forall_mem_cons]
    have hattribute := attributeAfterSign_ofKinds has.1
      (as.flatMap (fun a => a.kinds ++ [.control .space]) ++ k :: ks)
    rcases hattribute with ⟨hn, hdone⟩ | ⟨hn, cause, left, hfailed⟩
    · rw [attributes_of_done rfl hdone]
      exact (hrest.map rfl).congr (and_iff_right hn).symm
    · rw [attributes_of_failed rfl hfailed]
      exact .inr ⟨fun h => hn h.1, cause, left, rfl⟩

/-- The modifier that stands for an access level. -/
def AccessModifier.ofLevel (level : AccessLevel) : Option AccessModifier :=
  if level = .implied then none else some ⟨level, false, .nowhere⟩

/-- A printed access level is read back as its keyword alone. -/
theorem accessModifier_ofKinds (level : AccessLevel) (hlead : ∀ k ∈ lead, k.isTrivia = true)
    {k : TokenKind} (hk : IsBodyKeyword k) (ks : List TokenKind) :
    ∃ behind : List TokenKind, (∀ k ∈ behind, k.isTrivia = true) ∧
      accessModifier (ofKinds (lead ++
        ((if level = .implied then [] else [ofWord level.text, .control .space]) ++ k :: ks))) =
          .done (AccessModifier.ofLevel level) (ofKinds (behind ++ k :: ks)) := by
  have haccess : k.accessLevel? = none := by rcases hk with rfl | rfl <;> rfl
  by_cases hlevel : level = .implied
  · refine ⟨lead, hlead, ?_⟩
    rw [if_pos hlevel, List.nil_append, ofKinds_append_cons hlead hk.isTrivia, accessModifier,
      AccessModifier.ofLevel, if_pos hlevel]
    have haccess' : (⟨lead.map .bare, .bare k⟩ : Terminal).accessLevel? = none := haccess
    rw [haccess']
  · refine ⟨[.control .space], isTrivia_space, ?_⟩
    have hword : (⟨lead.map .bare, .bare (ofWord level.text)⟩ : Terminal).accessLevel? =
        some level := by
      rcases level with _ | _ | _ | _
      · exact absurd rfl hlevel
      all_goals rfl
    rw [if_neg hlevel, List.cons_append, ofKinds_append_cons hlead (isTrivia_ofWord _),
      ofKinds_append_cons isTrivia_space hk.isTrivia, accessModifier, hword,
      AccessModifier.ofLevel, if_neg hlevel]
    exact if_neg (Bool.eq_false_iff.1 (hk.isPunctuator .leftParen))

/-- The head that a text description gives a declaration. -/
def DeclarationHead.ofDeclaration (d : Declaration) : DeclarationHead :=
  ⟨d.attributes.map (Attribute.relocate .forget), AccessModifier.ofLevel d.access⟩

namespace DeclarationHead

variable (d : Declaration)

theorem access_ofDeclaration : (ofDeclaration d).access = d.access := by
  rw [ofDeclaration, access, AccessModifier.ofLevel]
  split
  · exact Eq.symm ‹_›
  · rfl

/-- A printed head has no `(set)` to reject. -/
theorem diagnostics_ofDeclaration : (ofDeclaration d).diagnostics = [] := by
  rw [ofDeclaration, diagnostics, AccessModifier.ofLevel]
  split <;> rfl

theorem firstRange?_ofDeclaration : (ofDeclaration d).firstRange?.getD .nowhere = .nowhere := by
  rw [ofDeclaration, firstRange?, AccessModifier.ofLevel]
  rcases d.attributes with _ | ⟨a, as⟩
  · split <;> rfl
  · rfl

end DeclarationHead

/-- **A printed head is read back**, unless an attribute has a reserved name. -/
theorem declarationHead_ofKinds {d : Declaration} (hd : d.IsPrintable)
    (hlead : ∀ k ∈ lead, k.isTrivia = true) {k : TokenKind} (hk : IsBodyKeyword k)
    (ks : List TokenKind) :
    ∃ behind : List TokenKind, (∀ k ∈ behind, k.isTrivia = true) ∧
      (declarationHead (ofKinds (lead ++ (d.headKinds ++ k :: ks)))).DecidedBy
        (∀ a ∈ d.attributes, ¬ IsReserved a.name) (.ofDeclaration d)
          (ofKinds (behind ++ k :: ks)) := by
  rw [Declaration.headKinds, List.append_assoc, declarationHead]
  -- Behind the attributes stands the modifier or, if there is none, the keyword.
  obtain ⟨first, others, hfirst, htrivia, hsign⟩ : ∃ first others,
      (if d.access = .implied then [] else [ofWord d.access.text, .control .space]) ++ k :: ks =
        first :: others ∧ first.isTrivia = false ∧ first.isPunctuator .atSign = false := by
    split
    · exact ⟨k, ks, rfl, hk.isTrivia, hk.isPunctuator _⟩
    · exact ⟨_, _, rfl, isTrivia_ofWord _, isPunctuator_ofWord _ _⟩
  obtain ⟨between, hbetween, hattributes⟩ :=
    attributes_ofKinds hd.attributes hlead htrivia hsign others
  rw [← hfirst] at hattributes
  obtain ⟨behind, hbehind, hmodifier⟩ := accessModifier_ofKinds d.access hbetween hk ks
  refine ⟨behind, hbehind, (hattributes.andThen ?_).congr (iff_of_eq (and_true _))⟩
  rw [hmodifier]
  exact Reading.decidedBy_done _ _

end DeclFront.Grammar
