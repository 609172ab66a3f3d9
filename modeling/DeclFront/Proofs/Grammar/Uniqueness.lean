import DeclFront.Proofs.Grammar.Acceptance

/-!
# Proofs/Grammar/Uniqueness — a text has one derivation at most

A tree is determined by its yield.  For a node with a fixed number of children that is read off its
leaves.  Where a list of children stands, the parser tells where the first of them ends: two trees
in front of the same terminals are read alike, so what they leave is the same, and so is what they
yield.
-/

namespace DeclFront.Grammar

/-! ## Leaves -/

/-- A leaf is known from its terminal; so it is for the other leaves. -/
theorem Mark.ext_terminal {p : Punctuator} {a b : Mark p} (h : a.terminal = b.terminal) :
    a = b := by
  cases a
  cases h
  rfl

theorem Word.ext_terminal {word : String} {a b : Word word} (h : a.terminal = b.terminal) :
    a = b := by
  cases a
  cases h
  rfl

theorem NameLeaf.ext_terminal {a b : NameLeaf} (h : a.terminal = b.terminal) : a = b := by
  obtain ⟨t, text, ha⟩ := a
  obtain ⟨u, text', hb⟩ := b
  obtain rfl : t = u := h
  obtain rfl : text = text' := Option.some.inj (ha.symm.trans hb)
  rfl

theorem AccessLeaf.ext_terminal {a b : AccessLeaf} (h : a.terminal = b.terminal) : a = b := by
  obtain ⟨t, level, ha⟩ := a
  obtain ⟨u, level', hb⟩ := b
  obtain rfl : t = u := h
  obtain rfl : level = level' := Option.some.inj (ha.symm.trans hb)
  rfl

/-! ## Nodes -/

/-- Names behind separators are known from their terminals. -/
theorem yieldOthers_injective {separator : Punctuator} {a b : List (Mark separator × NameLeaf)}
    (h : yieldOthers a = yieldOthers b) : a = b := by
  induction a generalizing b with
  | nil =>
    cases b with
    | nil => rfl
    | cons _ _ => cases h
  | cons x a ih =>
    cases b with
    | nil => cases h
    | cons y b =>
      obtain ⟨mark, leaf⟩ := x
      obtain ⟨mark', leaf'⟩ := y
      obtain ⟨hmark, h⟩ := List.cons.inj h
      obtain ⟨hleaf, h⟩ := List.cons.inj h
      rw [Mark.ext_terminal hmark, NameLeaf.ext_terminal hleaf, ih h]

theorem NamesTree.yield_injective {separator : Punctuator} {a b : NamesTree separator}
    (h : a.yield = b.yield) : a = b := by
  obtain ⟨first, others⟩ := a
  obtain ⟨first', others'⟩ := b
  obtain ⟨hfirst, hothers⟩ := List.cons.inj h
  obtain rfl : first = first' := NameLeaf.ext_terminal hfirst
  obtain rfl : others = others' := yieldOthers_injective hothers
  rfl

theorem ClauseTree.yield_injective {a b : ClauseTree} (h : a.yield = b.yield) : a = b := by
  obtain ⟨opening, hadjacent, inner, hinner, closing⟩ := a
  obtain ⟨opening', hadjacent', inner', hinner', closing'⟩ := b
  obtain ⟨hopening, h⟩ := List.cons.inj h
  obtain ⟨rfl, hclosing⟩ := List.append_inj' h rfl
  obtain rfl := Mark.ext_terminal hopening
  obtain rfl := Mark.ext_terminal (List.cons.inj hclosing).1
  rfl

/-- An attribute is known from its terminals, whether it has a clause or not. -/
theorem AttributeTree.yield_injective {a b : AttributeTree} (h : a.yield = b.yield) : a = b := by
  obtain ⟨sign, name, clause⟩ := a
  obtain ⟨sign', name', clause'⟩ := b
  obtain ⟨hsign, h⟩ := List.cons.inj h
  obtain ⟨hname, hclause⟩ := List.cons.inj h
  obtain rfl : sign = sign' := Mark.ext_terminal hsign
  obtain rfl : name = name' := NameLeaf.ext_terminal hname
  cases clause with
  | none =>
    cases clause' with
    | none => rfl
    | some _ => cases hclause
  | some clause =>
    cases clause' with
    | none => cases hclause
    | some clause' => rw [ClauseTree.yield_injective hclause]

theorem ModifierTree.yield_injective {a b : ModifierTree} (h : a.yield = b.yield) : a = b := by
  obtain ⟨keyword, setter⟩ := a
  obtain ⟨keyword', setter'⟩ := b
  obtain ⟨hkeyword, hsetter⟩ := List.cons.inj h
  obtain rfl : keyword = keyword' := AccessLeaf.ext_terminal hkeyword
  cases setter with
  | none =>
    cases setter' with
    | none => rfl
    | some _ => cases hsetter
  | some setter =>
    cases setter' with
    | none => cases hsetter
    | some setter' =>
      obtain ⟨opening, word, closing⟩ := setter
      obtain ⟨opening', word', closing'⟩ := setter'
      obtain ⟨hopening, hsetter⟩ := List.cons.inj hsetter
      obtain ⟨hword, hsetter⟩ := List.cons.inj hsetter
      obtain rfl : opening = opening' := Mark.ext_terminal hopening
      obtain rfl : word = word' := Word.ext_terminal hword
      obtain rfl : closing = closing' := Mark.ext_terminal (List.cons.inj hsetter).1
      rfl

/-! ## Lists of nodes -/

variable {rest rest' : List Terminal}

/-- The attributes in front of a keyword. -/
theorem attributes_yield_append_inj {as bs : List AttributeTree} {t u : Terminal} {k l : Keyword}
    (ht : t.token.kind = .keyword k) (hu : u.token.kind = .keyword l)
    (h : as.flatMap AttributeTree.yield ++ t :: rest =
      bs.flatMap AttributeTree.yield ++ u :: rest') :
    as = bs ∧ t :: rest = u :: rest' := by
  have not_opens (cs : List AttributeTree) {v : Terminal} {m : Keyword}
      (hv : v.token.kind = .keyword m) (vs : List Terminal) :
      ¬ Begins opensClause (cs.flatMap AttributeTree.yield ++ v :: vs) := by
    cases cs with
    | nil => simp [opensClause, isPunctuator_of_kind_eq_keyword hv]
    | cons c cs =>
      exact not_opensClause_of_atSign (begins_atSign_of_ne_nil (List.cons_ne_nil _ _))
  have not_sign (a : AttributeTree) {v : Terminal} {m : Keyword} {vs ws : List Terminal}
      (hv : v.token.kind = .keyword m) : v :: vs ≠ a.yield ++ ws := by
    intro heq
    have := a.sign.isPunctuator
    rw [← (List.cons.inj heq).1, isPunctuator_of_kind_eq_keyword hv] at this
    cases this
  induction as generalizing bs with
  | nil =>
    cases bs with
    | nil => exact ⟨rfl, h⟩
    | cons b bs =>
      rw [List.flatMap_nil, List.nil_append, List.flatMap_cons, List.append_assoc] at h
      exact absurd h (not_sign b ht)
  | cons a as ih =>
    cases bs with
    | nil =>
      rw [List.flatMap_nil, List.nil_append, List.flatMap_cons, List.append_assoc] at h
      exact absurd h.symm (not_sign a hu)
    | cons b bs =>
      rw [List.flatMap_cons, List.append_assoc, List.flatMap_cons, List.append_assoc] at h
      have hsign : a.sign = b.sign := Mark.ext_terminal (List.cons.inj h).1
      have ha := (attributeAfterSign_eq_done_iff a.sign).2
        ⟨a, rfl, rfl, rfl, fun _ => not_opens as ht rest⟩
      have hb := (attributeAfterSign_eq_done_iff b.sign).2
        ⟨b, rfl, rfl, rfl, fun _ => not_opens bs hu rest'⟩
      rw [hsign, (List.cons.inj h).2] at ha
      obtain ⟨-, hrest⟩ := Reading.done.inj (ha.symm.trans hb)
      rw [hrest] at h
      obtain ⟨rfl, hlast⟩ := ih hrest
      exact ⟨by rw [AttributeTree.yield_injective (List.append_cancel_right h)], hlast⟩

/-- The modifier in front of a body. -/
theorem modifier_yield_append_inj {m n : Option ModifierTree} {a b : BodyTree}
    (h : (m.map ModifierTree.yield).getD [] ++ a.yield =
      (n.map ModifierTree.yield).getD [] ++ b.yield) : m = n ∧ a.yield = b.yield := by
  have hm := declarationHead_of_trees [] m a []
  have hn := declarationHead_of_trees [] n b []
  simp only [List.append_nil] at hm hn
  rw [h] at hm
  obtain ⟨-, hbody⟩ := Reading.done.inj (hm.symm.trans hn)
  rw [hbody] at h
  have hyield := List.append_cancel_right h
  refine ⟨?_, hbody⟩
  cases m with
  | none =>
    cases n with
    | none => rfl
    | some _ => cases hyield
  | some m =>
    cases n with
    | none => cases hyield
    | some n => rw [ModifierTree.yield_injective hyield]

/-- No terminal is both a word and a mark. -/
theorem Word.terminal_ne {word : String} {p : Punctuator} (w : Word word) (mark : Mark p) :
    w.terminal ≠ mark.terminal := by
  intro heq
  have hp := isPunctuator_of_isKeyword w.isKeyword p
  rw [heq, mark.isPunctuator] at hp
  cases hp

/-- A closing brace begins no member. -/
theorem MemberTree.cons_ne_yield_append (a : MemberTree) (close : Mark .rightBrace)
    (ts us : List Terminal) : close.terminal :: ts ≠ a.yield ++ us := by
  intro heq
  rcases a with tree | mark
  · exact tree.keyword.terminal_ne close (List.cons.inj heq).1.symm
  · have hp := isPunctuator_of_ne mark.isPunctuator (q := .rightBrace) (by decide)
    rw [← (List.cons.inj heq).1, close.isPunctuator] at hp
    cases hp

/-- A member in front of others. -/
theorem MemberTree.yield_append_inj {a b : MemberTree} {as bs : List MemberTree}
    {c d : Mark .rightBrace}
    (h : a.yield ++ (as.flatMap MemberTree.yield ++ [c.terminal]) =
      b.yield ++ (bs.flatMap MemberTree.yield ++ [d.terminal])) :
    a = b ∧ as.flatMap MemberTree.yield ++ [c.terminal] =
      bs.flatMap MemberTree.yield ++ [d.terminal] := by
  rcases a with tree | mark <;> rcases b with tree' | mark'
  · have hkeyword : tree.keyword = tree'.keyword := Word.ext_terminal (List.cons.inj h).1
    have ha : enumCase tree.keyword.terminal.token (tree.elements.yield ++
        (as.flatMap MemberTree.yield ++ [c.terminal])) = .done tree.toEnumCase _ :=
      (enumCase_eq_done_iff tree.keyword).2 ⟨tree, rfl, rfl, rfl, not_begins_comma as c []⟩
    have hb : enumCase tree'.keyword.terminal.token (tree'.elements.yield ++
        (bs.flatMap MemberTree.yield ++ [d.terminal])) = .done tree'.toEnumCase _ :=
      (enumCase_eq_done_iff tree'.keyword).2 ⟨tree', rfl, rfl, rfl, not_begins_comma bs d []⟩
    have htail : tree.elements.yield ++ (as.flatMap MemberTree.yield ++ [c.terminal]) =
        tree'.elements.yield ++ (bs.flatMap MemberTree.yield ++ [d.terminal]) :=
      (List.cons.inj h).2
    rw [hkeyword, htail] at ha
    obtain ⟨-, hmore⟩ := Reading.done.inj (ha.symm.trans hb)
    refine ⟨?_, hmore⟩
    rw [hmore] at htail
    obtain ⟨keyword, elements⟩ := tree
    obtain ⟨keyword', elements'⟩ := tree'
    obtain rfl : keyword = keyword' := hkeyword
    obtain rfl : elements = elements' :=
      NamesTree.yield_injective (List.append_cancel_right htail)
    rfl
  · exact absurd (List.cons.inj h).1 (tree.keyword.terminal_ne mark')
  · exact absurd (List.cons.inj h).1.symm (tree'.keyword.terminal_ne mark)
  · obtain ⟨hmark, hmore⟩ := List.cons.inj h
    exact ⟨by rw [Mark.ext_terminal hmark], hmore⟩

/-- Members in front of a closing brace are known from their terminals. -/
theorem members_yield_append_inj {as bs : List MemberTree} {c d : Mark .rightBrace}
    (h : as.flatMap MemberTree.yield ++ [c.terminal] =
      bs.flatMap MemberTree.yield ++ [d.terminal]) :
    as = bs ∧ c = d := by
  induction as generalizing bs with
  | nil =>
    rcases bs with _ | ⟨b, bs⟩
    · exact ⟨rfl, Mark.ext_terminal (List.cons.inj h).1⟩
    · rw [List.flatMap_nil, List.nil_append, List.flatMap_cons, List.append_assoc] at h
      exact absurd h (b.cons_ne_yield_append c _ _)
  | cons a as ih =>
    rcases bs with _ | ⟨b, bs⟩
    · rw [List.flatMap_nil, List.nil_append, List.flatMap_cons, List.append_assoc] at h
      exact absurd h.symm (a.cons_ne_yield_append d _ _)
    · rw [List.flatMap_cons, List.append_assoc, List.flatMap_cons, List.append_assoc] at h
      obtain ⟨rfl, hmore⟩ := MemberTree.yield_append_inj h
      obtain ⟨rfl, rfl⟩ := ih hmore
      exact ⟨rfl, rfl⟩

/-! ## Whole texts -/

/-- The keyword tells what is declared, so a body is known from its terminals. -/
theorem BodyTree.yield_injective {a b : BodyTree} (h : a.yield = b.yield) : a = b := by
  have not_both {t : Terminal} (henum : t.isKeyword "enum" = true)
      (himport : t.isKeyword "import" = true) : False := by
    unfold Terminal.isKeyword TokenKind.isKeyword at henum himport
    split at henum <;> simp_all
  cases a with
  | enumeration a =>
    cases b with
    | enumeration b =>
      obtain ⟨keyword, name, opening, members, closing⟩ := a
      obtain ⟨keyword', name', opening', members', closing'⟩ := b
      obtain ⟨hkeyword, h⟩ := List.cons.inj h
      obtain ⟨hname, h⟩ := List.cons.inj h
      obtain ⟨hopening, h⟩ := List.cons.inj h
      obtain ⟨rfl, rfl⟩ := members_yield_append_inj h
      obtain rfl : keyword = keyword' := Word.ext_terminal hkeyword
      obtain rfl : name = name' := NameLeaf.ext_terminal hname
      obtain rfl : opening = opening' := Mark.ext_terminal hopening
      rfl
    | importing b =>
      have hkeyword := a.keyword.isKeyword
      rw [(List.cons.inj h).1] at hkeyword
      exact (not_both hkeyword b.keyword.isKeyword).elim
  | importing a =>
    cases b with
    | enumeration b =>
      have hkeyword := a.keyword.isKeyword
      rw [(List.cons.inj h).1] at hkeyword
      exact (not_both b.keyword.isKeyword hkeyword).elim
    | importing b =>
      obtain ⟨keyword, path⟩ := a
      obtain ⟨keyword', path'⟩ := b
      obtain ⟨hkeyword, hpath⟩ := List.cons.inj h
      obtain rfl : keyword = keyword' := Word.ext_terminal hkeyword
      obtain rfl : path = path' := NamesTree.yield_injective hpath
      rfl

/-- **A declaration has one derivation.** -/
theorem DeclarationTree.yield_injective {a b : DeclarationTree} (h : a.yield = b.yield) :
    a = b := by
  obtain ⟨as, m, body⟩ := a
  obtain ⟨bs, n, body'⟩ := b
  simp only [DeclarationTree.yield, DeclarationTree.headYield, List.append_assoc] at h
  obtain ⟨t, ts, k, ht, hk⟩ := headRest_eq_cons m body []
  obtain ⟨u, us, l, hu, hl⟩ := headRest_eq_cons n body' []
  rw [List.append_nil] at ht hu
  rw [ht, hu] at h
  obtain ⟨rfl, hbehind⟩ := attributes_yield_append_inj hk hl h
  obtain ⟨rfl, hbody⟩ := modifier_yield_append_inj (ht.trans (hbehind.trans hu.symm))
  rw [BodyTree.yield_injective hbody]

theorem ItemTree.yield_ne_nil (item : ItemTree) : item.yield ≠ [] := by
  rcases item with tree | mark
  · exact tree.yield_ne_nil
  · exact List.cons_ne_nil _ _

/-- A semicolon begins no declaration. -/
theorem DeclarationTree.cons_ne_yield_append (tree : DeclarationTree) (mark : Mark .semicolon)
    (ts us : List Terminal) : mark.terminal :: ts ≠ tree.yield ++ us := by
  intro heq
  obtain ⟨t, vs, hyield, ht⟩ := tree.yield_eq_cons
  rw [hyield] at heq
  have hp := ht .semicolon (by decide)
  rw [← (List.cons.inj heq).1, mark.isPunctuator] at hp
  cases hp

/-- An item in front of others. -/
theorem ItemTree.yield_append_inj {item other : ItemTree} {a b : Sentence}
    (h : item.yield ++ a.yield = other.yield ++ b.yield) : item = other ∧ a.yield = b.yield := by
  rcases item with tree | mark <;> rcases other with tree' | mark'
  · have ends (tree : DeclarationTree) (c : Sentence) : tree.body.EndsBefore c.yield := by
      have hc := Sentence.not_begins_period c (not_begins_nil (·.isPunctuator .period))
      rw [List.append_nil] at hc
      exact tree.body.endsBefore_of_not_begins hc
    have ha := declaration_of_tree tree (ends tree a)
    have hb := declaration_of_tree tree' (ends tree' b)
    rw [ItemTree.yield, ItemTree.yield] at h
    rw [h] at ha
    obtain ⟨-, hmore⟩ := Reading.done.inj (DeclarationAttempt.mk.inj (ha.symm.trans hb)).2
    refine ⟨?_, hmore⟩
    rw [hmore] at h
    rw [DeclarationTree.yield_injective (List.append_cancel_right h)]
  · exact absurd h.symm (tree.cons_ne_yield_append mark' _ _)
  · exact absurd h (tree'.cons_ne_yield_append mark _ _)
  · obtain ⟨hmark, hmore⟩ := List.cons.inj h
    exact ⟨by rw [Mark.ext_terminal hmark], hmore⟩

/-- **A text has one derivation at most.** -/
theorem Sentence.yield_injective : Function.Injective Sentence.yield := by
  intro a b h
  induction a generalizing b with
  | nil =>
    rcases b with _ | ⟨other, b⟩
    · rfl
    · exact absurd (List.append_eq_nil_iff.1 h.symm).1 other.yield_ne_nil
  | cons item a ih =>
    rcases b with _ | ⟨other, b⟩
    · exact absurd (List.append_eq_nil_iff.1 h).1 item.yield_ne_nil
    · rw [Sentence.yield_cons, Sentence.yield_cons] at h
      obtain ⟨rfl, hmore⟩ := ItemTree.yield_append_inj h
      rw [ih hmore]

end DeclFront.Grammar
