import DeclFront.Proofs.Grammar.Leading
import DeclFront.Proofs.Grammar.Relocation
import DeclFront.Proofs.Grammar.Settled
import DeclFront.Proofs.Ranges

/-!
# Proofs/StandAlone — the slice of a declaration stands alone

Nothing in a declaration has looked at what follows it, so the slice of a text that it covers is
read as the tokens that stand there (`Token.ofText_chars_of_settled`), but from a start of its own
(`Token.map_relocate_ofText`).  Parsed by itself, the slice gives the declaration and the
diagnostics that lie inside it, moved to where the slice starts, and no failure, whatever fails in
the rest of the text (`TokenStream.parse_slice`).
-/

namespace DeclFront

open Grammar

/-! ## A part of a text read alone -/

/-- Where a location of a text is when the text starts at `start`. -/
def Location.shift (start l : Location) : Location :=
  ⟨start.toPosition.shift l.toPosition, start.path⟩

namespace Token

variable {path : String} {p : Position} {text : List Char} {front block back : List Token}

/-- **Reading does not look at where a text starts**, but for the ranges. -/
theorem map_relocate_ofText (start : Location) (other : String) (hp : .first ≤ p)
    (text : List Char) :
    (ofText other p text).map (Token.relocate start.shift) =
      ofText start.path (start.toPosition.shift p) text := by
  fun_induction ofText other p text with
  | case1 => rw [ofText_nil, List.map_nil]
  | case2 p c cs lexeme stop ih =>
    have hstop : start.toPosition.shift stop =
        (start.toPosition.shift p).pastAll lexeme.chars lexeme.rest :=
      Position.shift_pastAll hp _ _ _
    rw [List.map_cons, ih (hp.trans (Position.le_pastAll p _ _)), ofText]
    simp only [Token.relocate, Range.relocate, Location.shift, hstop]
    rfl

/-- **Tokens that are legible alone are read alone**, where they end in no carriage return. -/
theorem ofText_chars (h : ofText path p text = front ++ back)
    (hlegible : TokenKind.Legible (front.map Token.kind) [])
    (hlast : (chars front).getLast? ≠ some '\r') : ofText path p (chars front) = front := by
  induction front generalizing p text with
  | nil => exact ofText_nil path p
  | cons t front ih =>
    rw [List.cons_append] at h
    obtain ⟨⟨c, cs, hk, hnext⟩, hfront⟩ := hlegible
    have hspelling : t.spelling.toList = c :: cs := hk
    have hrange := (ofText_eq_cons h).2
    have hbehind := ofText_append (show ofText path p text = [t] ++ (front ++ back) from h)
    rw [TokenKind.chars_map_kind, List.append_nil] at hnext
    -- What stands behind the tokens matters to the place of the last of them at most.
    have hstop : p.pastAll t.spelling.toList (chars front) =
        p.pastAll t.spelling.toList (chars (front ++ back)) := by
      refine Position.pastAll_congr p fun hreturn => ?_
      rcases hchars : chars front with _ | ⟨d, ds⟩
      · rw [chars_cons, hchars, List.append_nil] at hlast
        exact absurd hreturn hlast
      · rw [chars_append, hchars]
        rfl
    have hlast' : (chars front).getLast? ≠ some '\r' := by
      intro hreturn
      rw [chars_cons, List.getLast?_append, hreturn] at hlast
      exact hlast rfl
    have hrest := ih hbehind.symm hfront hlast'
    rw [chars_cons, chars_nil, List.append_nil] at hrest
    rw [chars_cons, hspelling, List.cons_append, ofText]
    simp only [hnext]
    rw [← hspelling, hstop, hrest, ← hrange]

/-- **Settled tokens inside a text are read alone**, from where they start. -/
theorem ofText_chars_of_settled (h : ofText path p text = front ++ (block ++ back))
    (hsettled : TokenKind.Settled (block.map Token.kind))
    (hlast : (chars block).getLast? ≠ some '\r') :
    ofText path (p.pastAll (chars front) (chars (block ++ back))) (chars block) = block := by
  have hbehind := (ofText_append h).symm
  exact ofText_chars hbehind
    (TokenKind.legible_nil_of_settled hsettled (TokenKind.legible_of_ofText hbehind)) hlast

/-- **The range from the first to the last of some tokens covers what they spell.** -/
theorem slice_of_ofText {path text : String} {first last : Token}
    (h : ofText path .first text.toList = front ++ (block ++ back))
    (hfirst : block.head? = some first) (hlast : block.getLast? = some last) :
    (first.range.through last.range).slice text = String.ofList (chars block) := by
  have htext : chars front ++ chars block ++ chars back = text.toList := by
    rw [← chars_ofText path .first text.toList, h, chars_append, chars_append, List.append_assoc]
  have hstart : first.range.start.toPosition =
      Position.first.pastAll (chars front) (chars block ++ chars back) := by
    obtain ⟨others, rfl⟩ := List.head?_eq_some_iff.1 hfirst
    rw [(range_of_ofText_append h).2]
    simp
  have hstop : last.range.stop.toPosition =
      Position.first.pastAll (chars front ++ chars block) (chars back) := by
    obtain ⟨others, rfl⟩ := List.getLast?_eq_some_iff.1 hlast
    rw [List.append_assoc, ← List.append_assoc] at h
    rw [(range_of_ofText_append h).2]
    simp
  rw [Range.slice, Range.through, hstart, hstop, ← htext, Position.slice_between]

end Token

/-! ## A declaration read alone -/

/-- No name holds a carriage return. -/
theorem IsName.not_mem_return {chars : List Char} (h : IsName chars) : '\r' ∉ chars := by
  intro hmem
  cases h with
  | word hc hcs =>
    rcases List.mem_cons.1 hmem with rfl | hmem
    · exact absurd hc (by decide)
    · exact absurd (hcs _ hmem) (by decide)
  | parameter hc hcs =>
    rcases List.mem_cons.1 hmem with hdollar | hmem
    · exact absurd hdollar (by decide)
    · rcases List.mem_cons.1 hmem with rfl | hmem
      · exact absurd hc (by decide)
      · exact absurd (hcs _ hmem) (by decide)

/-- A plain kind that is not a blank ends in another character than a carriage return. -/
theorem TokenKind.IsPlain.exists_getLast? {k : TokenKind} (hk : k.IsPlain)
    (htrivia : k.isTrivia = false) : ∃ c ≠ '\r', k.spelling.toList.getLast? = some c := by
  cases hk with
  | name hname =>
    have hne : k.spelling.toList ≠ [] := by
      intro hnil
      rw [hnil] at hname
      cases hname
    refine ⟨_, ?_, List.getLast?_eq_some_getLast hne⟩
    exact fun hreturn => hname.not_mem_return (hreturn ▸ List.getLast_mem hne)
  | quotedName n =>
    have hchars : (quotedIdentifier n).spelling.toList = '\x60' :: n.toList ++ ['\x60'] := by
      simp [spelling]
    exact ⟨'\x60', by decide, by rw [hchars, List.getLast?_concat]⟩
  | @delimiter p c hp hc =>
    refine ⟨c, ?_, congrArg List.getLast? (Punctuator.spelling_of_ofDelimiter? hp)⟩
    rintro rfl
    cases hp
  | control c => cases htrivia

namespace Grammar

variable {tree : DeclarationTree}

namespace DeclarationTree

/-- The tokens of a declaration, from the first that is not trivia to the last. -/
def block (tree : DeclarationTree) : List Token :=
  Terminal.tokens (Terminal.dropLeading tree.yield)

/-- The block of a declaration stands in any stream that it is read from. -/
theorem exists_stream_eq {stream : List Token} (h : tree.yield <:+: Terminal.ofTokens stream) :
    ∃ front back, stream = front ++ (tree.block ++ back) := by
  obtain ⟨-, front, back, hstream⟩ := Terminal.exists_eq_of_infix h
  obtain ⟨trivia, -, htokens⟩ := Terminal.exists_tokens_eq_append tree.yield
  refine ⟨front ++ trivia, back, ?_⟩
  rw [hstream, htokens, block, List.append_assoc, List.append_assoc]

theorem head?_block (tree : DeclarationTree) : tree.block.head? = some tree.first.token := by
  rw [block, Terminal.head?_tokens_dropLeading, tree.head?_yield, Option.map_some]

theorem getLast?_block (tree : DeclarationTree) :
    tree.block.getLast? = some tree.body.last.token := by
  obtain ⟨trivia, -, htokens⟩ := Terminal.exists_tokens_eq_append tree.yield
  have hlast := Terminal.getLast?_tokens tree.yield
  rw [htokens, tree.getLast?_yield, List.getLast?_append] at hlast
  have hne : tree.block ≠ [] := by
    intro hnil
    have hhead := tree.head?_block
    rw [hnil] at hhead
    cases hhead
  rw [block] at hne ⊢
  rwa [List.getLast?_eq_some_getLast hne, Option.some_or, ← List.getLast?_eq_some_getLast hne]
    at hlast

/-- What follows a block cannot change how it is read. -/
theorem settled_block (hread : ∀ t ∈ tree.yield, IsRead t) :
    TokenKind.Settled (tree.block.map Token.kind) := by
  obtain ⟨trivia, -, htokens⟩ := Terminal.exists_tokens_eq_append tree.yield
  have hsettled := tree.settled_yield hread
  rw [kinds, htokens, List.map_append] at hsettled
  exact hsettled.of_append

/-- No block ends with a carriage return, so a line feed behind it starts a line of its own. -/
theorem getLast?_chars_block (hread : ∀ t ∈ tree.yield, IsRead t) :
    (Token.chars tree.block).getLast? ≠ some '\r' := by
  have hmem : tree.body.last ∈ tree.body.yield := List.mem_of_getLast? tree.body.getLast?_yield
  have hlast := hread _ (List.mem_append_right _ hmem)
  obtain ⟨c, hc, hspelling⟩ :=
    (tree.body.arePlain _ hmem hlast.givesName).exists_getLast? hlast.isRegular.2
  obtain ⟨inner, hinner⟩ := List.getLast?_eq_some_iff.1 tree.getLast?_block
  rw [hinner, Token.chars_append, Token.chars_cons, Token.chars_nil, List.append_nil,
    List.getLast?_append, Token.spelling, hspelling]
  exact fun hreturn => hc (Option.some.inj hreturn)

/-- **The block of a declaration is parsed as that declaration.** -/
theorem declarations_block (hread : ∀ t ∈ tree.yield, IsRead t) (stop : Location) :
    declarations stop (Terminal.ofTokens tree.block) =
      ⟨⟨[tree.toDeclaration]⟩, ⟨tree.rejection?.toList⟩, []⟩ := by
  have hregular : ∀ t ∈ Terminal.dropLeading tree.yield, t.IsRegular :=
    Terminal.isRegular_dropLeading fun t ht => (hread t ht).isRegular
  have hparse : declarations stop (tree.yield ++ []) = _ := declarations_yield_append_of_tree tree
    (tree.body.endsBefore_of_not_begins (not_begins_nil _))
  rw [List.append_nil, declarations] at hparse
  rw [block, Terminal.ofTokens_tokens hregular, declarations_dropLeading, hparse]
  change (⟨⟨[tree.toDeclaration]⟩, ⟨tree.rejection?.toList ++ []⟩, []⟩ : Outcome) = _
  rw [List.append_nil]

end DeclarationTree

/-! ## The diagnostics inside a declaration -/

/-- What the modifier of a declaration earns lies inside the declaration. -/
theorem DeclarationTree.encloses_rejection (tree : DeclarationTree) (h : InOrder tree.yield)
    {x : Diagnostic} (hx : x ∈ tree.rejection?) : tree.toDeclaration.range.Encloses x.range := by
  obtain ⟨m, hm, hx⟩ := Option.bind_eq_some_iff.1 hx
  rw [m.range_eq_of_rejection hx]
  exact h.encloses_span tree.yield_ne_nil (tree.modifier_infix m hm).sublist m.yield_ne_nil

/-- The diagnostics of stretches in front of a declaration or behind it do not lie inside it. -/
theorem not_encloses_of_mem_rejections {stretches : List Stretch} {x : Diagnostic}
    (hx : x ∈ stretches.filterMap Stretch.rejection?)
    (h : InOrder (stretches.flatMap Stretch.yield ++ tree.yield) ∨
      InOrder (tree.yield ++ stretches.flatMap Stretch.yield)) :
    ¬ tree.toDeclaration.range.Encloses x.range := by
  obtain ⟨m, hm, hx⟩ := exists_modifier_of_mem_rejections hx
  have hus := m.yield_ne_nil
  rw [m.range_eq_of_rejection hx]
  rcases h with h | h
  · have horder := h.sublist ((List.append_sublist_append_right tree.yield).2 hm.sublist)
    exact Range.not_encloses_of_precedes
      ((horder.sublist (List.sublist_append_left _ _)).start_lt_stop_span hus)
      (.inr (horder.precedes_span hus tree.yield_ne_nil))
  · have horder := h.sublist ((List.append_sublist_append_left tree.yield).2 hm.sublist)
    exact Range.not_encloses_of_precedes
      ((horder.sublist (List.sublist_append_right _ _)).start_lt_stop_span hus)
      (.inl (horder.precedes_span tree.yield_ne_nil hus))

/-- **The diagnostics inside a declaration are its own.** -/
theorem filter_rejections {front back : List Stretch}
    (h : InOrder ((front ++ .item (.declaration tree) :: back).flatMap Stretch.yield)) :
    ((front ++ .item (.declaration tree) :: back).filterMap Stretch.rejection?).filter
        (tree.toDeclaration.range.Encloses ·.range) = tree.rejection?.toList := by
  rw [List.flatMap_append, List.flatMap_cons] at h
  have hfront : ∀ x ∈ front.filterMap Stretch.rejection?,
      ¬ tree.toDeclaration.range.Encloses x.range := fun x hx =>
    not_encloses_of_mem_rejections hx (.inl (h.sublist
      ((List.append_sublist_append_left _).2 (List.sublist_append_left _ _))))
  have hback : ∀ x ∈ back.filterMap Stretch.rejection?,
      ¬ tree.toDeclaration.range.Encloses x.range := fun x hx =>
    not_encloses_of_mem_rejections hx (.inr (h.sublist (List.sublist_append_right _ _)))
  have hown : ∀ x ∈ tree.rejection?.toList, tree.toDeclaration.range.Encloses x.range := fun x hx =>
    tree.encloses_rejection (h.sublist
      ((List.sublist_append_left _ _).trans (List.sublist_append_right _ _)))
      (Option.mem_toList.1 hx)
  have hitem : [Stretch.item (.declaration tree)].filterMap Stretch.rejection? =
      tree.rejection?.toList := by
    have hrejection : (Stretch.item (.declaration tree)).rejection? = tree.rejection? := rfl
    rw [List.filterMap_cons, hrejection, List.filterMap_nil]
    rcases tree.rejection? with _ | x <;> rfl
  rw [← List.singleton_append, List.filterMap_append, List.filterMap_append, hitem,
    List.filter_append, List.filter_append, List.filter_eq_nil_iff.2 (by simpa using hfront),
    List.filter_eq_self.2 (by simpa using hown), List.filter_eq_nil_iff.2 (by simpa using hback),
    List.nil_append, List.append_nil]

end Grammar

/-! ## Whole parses -/

namespace TokenStream

/-- A declaration that is read from a part of a text is parsed from that part. -/
theorem relocate_parse_slice {path text : String} {tree : DeclarationTree}
    {front back : List Token}
    (h : Token.ofText path .first text.toList = front ++ (tree.block ++ back))
    (hread : ∀ t ∈ tree.yield, IsRead t) (other : String) :
    (ofText other (tree.toDeclaration.range.slice text)).parse.relocate
        tree.toDeclaration.range.start.shift =
      ⟨⟨[tree.toDeclaration]⟩, ⟨tree.rejection?.toList⟩, []⟩ := by
  have hstart : tree.toDeclaration.range.start =
      ⟨Position.first.pastAll (Token.chars front) (Token.chars (tree.block ++ back)), path⟩ := by
    obtain ⟨others, hblock⟩ := List.head?_eq_some_iff.1 tree.head?_block
    rw [hblock] at h ⊢
    rw [tree.isExact_toDeclaration.range, Range.through, Terminal.range,
      (Token.range_of_ofText_append h).2]
    rfl
  have hslice : tree.toDeclaration.range.slice text = String.ofList (Token.chars tree.block) := by
    rw [tree.isExact_toDeclaration.range]
    exact Token.slice_of_ofText h tree.head?_block tree.getLast?_block
  have htokens : (Token.ofText other .first (Token.chars tree.block)).map
      (Token.relocate tree.toDeclaration.range.start.shift) = tree.block := by
    rw [Token.map_relocate_ofText _ _ le_rfl, Position.shift_first, hstart]
    exact Token.ofText_chars_of_settled h (tree.settled_block hread)
      (tree.getLast?_chars_block hread)
  rw [hslice, parse, ← declarations_relocate, ← Terminal.ofTokens_relocate, ofText,
    String.toList_ofList, htokens]
  exact tree.declarations_block hread _

/-- **The slice of a declaration stands alone**, whatever fails in the rest of the text: parsed by
itself, what the range of the declaration covers gives no failure, that declaration and the
diagnostics inside it, moved to where the slice starts. -/
theorem parse_slice (path other text : String) {d : Declaration}
    (hd : d ∈ (ofText path text).parse.tree.declarations) :
    (ofText other (d.range.slice text)).parse.failures = [] ∧
      (ofText other (d.range.slice text)).parse.tree.declarations.map
          (Declaration.relocate d.range.start.shift) = [d] ∧
      (ofText other (d.range.slice text)).parse.diagnostics.diagnostics.map
          (Diagnostic.relocate d.range.start.shift) =
        (ofText path text).parse.diagnostics.diagnostics.filter (d.range.Encloses ·.range) := by
  obtain ⟨stretches, hyield, houtcome⟩ :=
    exists_stretches (ofText path text).stop (Terminal.ofTokens (ofText path text).tokens)
  have hparse : (ofText path text).parse = Stretch.outcome stretches := houtcome
  have horder := inOrder_ofText path .first text.toList
  rw [hparse] at hd ⊢
  obtain ⟨tree, htree, rfl⟩ := List.mem_map.1 hd
  have hpart : tree.yield <:+: Terminal.ofTokens (ofText path text).tokens := by
    rw [hyield]
    exact Stretch.yield_infix_of_mem htree
  obtain ⟨stretch, hstretch, hstretchTree⟩ := List.mem_filterMap.1 htree
  obtain rfl := Stretch.eq_of_tree?_eq_some hstretchTree
  obtain ⟨before, behind, rfl⟩ := List.append_of_mem hstretch
  obtain ⟨front, back, hstream⟩ := tree.exists_stream_eq hpart
  have hslice := relocate_parse_slice hstream
    (fun t ht => isRead_of_mem_ofTokens (hpart.subset ht)) other
  rw [← filter_rejections (hyield ▸ horder)] at hslice
  obtain ⟨htree, hdiagnostics, hfailures⟩ := Outcome.mk.inj hslice
  exact ⟨List.map_eq_nil_iff.1 hfailures, congrArg SyntaxTree.declarations htree,
    congrArg DiagnosticPool.diagnostics hdiagnostics⟩

/-- The declaration in `private(set) ; private(set) import a`. -/
def importBehindModifier : Declaration :=
  ⟨[], .implied, .importing ["a"], ⟨⟨⟨1, 16⟩, "p"⟩, ⟨⟨1, 37⟩, "p"⟩⟩⟩

/-- What `private(set)` earns between two columns of the first line. -/
def settersOnlyDiagnostic (start stop : Nat) : Diagnostic :=
  ⟨.error, "'private' modifier cannot be applied to this declaration.",
    ⟨⟨⟨1, start⟩, "p"⟩, ⟨⟨1, stop⟩, "p"⟩⟩⟩

/-- Of two modifiers with `(set)`, the one that fails before the import is not in its slice. -/
theorem parse_slice_importBehindModifier :
    (ofText "p" "private(set) ; private(set) import a").parse.isSuccess = false ∧
      (ofText "p" "private(set) ; private(set) import a").parse.diagnostics.diagnostics =
        [settersOnlyDiagnostic 1 13, settersOnlyDiagnostic 16 28] ∧
      importBehindModifier ∈
        (ofText "p" "private(set) ; private(set) import a").parse.tree.declarations ∧
      (ofText "q" "private(set) import a").parse.failures = [] ∧
      (ofText "q" "private(set) import a").parse.tree.declarations.map
          (Declaration.relocate importBehindModifier.range.start.shift) =
        [importBehindModifier] ∧
      (ofText "q" "private(set) import a").parse.diagnostics.diagnostics.map
          (Diagnostic.relocate importBehindModifier.range.start.shift) =
        [settersOnlyDiagnostic 16 28] := by
  let modifier (leading : List Token) (column : Nat) : List Terminal :=
    [⟨leading, onFirstLine (.keyword ⟨"private", .declaration⟩) column (column + 7)⟩,
      ⟨[], onFirstLine (.punctuator .leftParen) (column + 7) (column + 8)⟩,
      ⟨[], onFirstLine (.keyword ⟨"set", .contextual .accessor⟩) (column + 8) (column + 11)⟩,
      ⟨[], onFirstLine (.punctuator .rightParen) (column + 11) (column + 12)⟩]
  let behind : List Terminal := modifier [onFirstLine (.control .space) 15 16] 16 ++
    [⟨[onFirstLine (.control .space) 28 29], onFirstLine (.keyword ⟨"import", .declaration⟩) 29 35⟩,
      ⟨[onFirstLine (.control .space) 35 36], onFirstLine (.identifier "a") 36 37⟩]
  let semicolon := onFirstLine (.punctuator .semicolon) 14 15
  let rest : List Terminal := ⟨[onFirstLine (.control .space) 13 14], semicolon⟩ :: behind
  let terminals := modifier [] 1 ++ rest
  have hparse : (ofText "p" "private(set) ; private(set) import a").parse =
      ⟨⟨[importBehindModifier]⟩, ⟨[settersOnlyDiagnostic 1 13, settersOnlyDiagnostic 16 28]⟩,
        [⟨.unexpected .declaration (some semicolon), semicolon.range⟩]⟩ := by
    have hterminals :
        Terminal.ofTokens (ofText "p" "private(set) ; private(set) import a").tokens =
          terminals := by decide +kernel
    have hfailed : (declaration terminals).reading =
        .failed (.unexpected .declaration (some semicolon)) rest := by decide +kernel
    have hdone : (declaration behind).reading = .done importBehindModifier [] := by decide +kernel
    have hresume : resume terminals.tail rest = behind := by decide +kernel
    have hfront : (declaration terminals).diagnostics = [settersOnlyDiagnostic 1 13] := by
      decide +kernel
    have hback : (declaration behind).diagnostics = [settersOnlyDiagnostic 16 28] := by
      decide +kernel
    have hfirst (stop : Location) : declarations stop terminals =
        .diagnose (declaration terminals).diagnostics
          (.fail (.ofCause stop (.unexpected .declaration (some semicolon)))
            (declarations stop (resume terminals.tail rest))) :=
      declarations_of_failed rfl hfailed
    have hsecond (stop : Location) : declarations stop behind =
        .diagnose (declaration behind).diagnostics
          (.declare importBehindModifier (declarations stop [])) :=
      declarations_of_done rfl hdone
    rw [parse, hterminals, hfirst, hfront, hresume, hsecond, hback, declarations]
    rfl
  have hslice : importBehindModifier.range.slice "private(set) ; private(set) import a" =
      "private(set) import a" := by decide +kernel
  have hmem : importBehindModifier ∈
      (ofText "p" "private(set) ; private(set) import a").parse.tree.declarations := by
    rw [hparse]
    exact List.mem_singleton_self _
  obtain ⟨hfailures, hdeclarations, hdiagnostics⟩ := parse_slice "p" "q" _ hmem
  rw [hslice] at hfailures hdeclarations hdiagnostics
  refine ⟨by rw [hparse]; rfl, by rw [hparse], hmem, hfailures, hdeclarations, ?_⟩
  rw [hdiagnostics, hparse]
  decide

end TokenStream

end DeclFront
