import DeclFront.Proofs.Grammar.Declaration
import DeclFront.Proofs.Printing.Head

/-!
# Proofs/Printing/Declaration — whole text descriptions, parsed

The rules for bodies and declarations follow those for the head; the parse of a whole description
is decided by the names in the tree (`declarations_ofKinds`).
-/

namespace DeclFront.Grammar

open Terminal TokenKind

variable {ks lead : List TokenKind}

/-! ## Bodies -/

/-- Behind trivia, the next significant kind decides how the rest begins. -/
theorem not_begins_isPunctuator (hlead : ∀ k ∈ lead, k.isTrivia = true) {k : TokenKind}
    (hk : k.isTrivia = false) {p : Punctuator} (hp : k.isPunctuator p = false)
    (ks : List TokenKind) : ¬ Begins (·.isPunctuator p) (ofKinds (lead ++ k :: ks)) := by
  rw [ofKinds_append_cons hlead hk, begins_cons_iff]
  exact Bool.eq_false_iff.1 hp

/-- A printed clause is read back, unless an element has a reserved name. -/
theorem enumCase_ofKinds {clause : EnumCase} (hclause : clause.IsPrintable)
    (hks : ¬ Begins (·.isPunctuator .comma) (ofKinds ks)) :
    (enumCase (.bare (ofWord "case")) (ofKinds (.control .space ::
      (ofNames [.punctuator .comma, .control .space] clause.names ++ ks)))).DecidedBy
        (∀ n ∈ clause.names, ¬ IsReserved n) (clause.relocate .forget) (ofKinds ks) := by
  obtain ⟨_ | ⟨n, ns⟩, range⟩ := clause
  · exact absurd rfl hclause.ne_nil
  have hnames := names_ofKinds .elementName .elementName isTrivia_space isTrivia_space n.text
    (ns.map (·.text)) hks
  refine hnames.map ?_
  have helements : Names.toList ⟨.bare n.text, (ns.map (·.text)).map .bare⟩ =
      (n :: ns).map (Name.relocate .forget) := by
    rw [Names.toList, List.map_map]
    rfl
  rw [Names.range_last_bare, helements]
  rfl

/-- Printed clauses are read back one by one, up to the closing brace. -/
theorem enumBody_ofKinds {cases : List EnumCase} (hcases : ∀ clause ∈ cases, clause.IsPrintable)
    (hlead : ∀ k ∈ lead, k.isTrivia = true) (ks : List TokenKind) :
    (enumBody (ofKinds (lead ++
      (cases.flatMap (fun clause => clause.kinds ++ [.control .lineFeed]) ++
        .punctuator .rightBrace :: ks)))).DecidedBy
          (∀ n ∈ cases.flatMap EnumCase.names, ¬ IsReserved n)
            (cases.map (EnumCase.relocate .forget), .bare (.punctuator .rightBrace))
              (ofKinds ks) := by
  induction cases generalizing lead with
  | nil =>
    refine .inl ⟨List.forall_mem_nil _, ?_⟩
    rw [List.flatMap_nil, List.nil_append, ofKinds_append_cons hlead rfl]
    exact enumBody_of_close rfl
  | cons clause cases ih =>
    rw [List.forall_mem_cons] at hcases
    -- Behind the clause and its line end stands the next clause or the closing brace.
    obtain ⟨next, others, hnext, htrivia, hcomma⟩ : ∃ next others,
        cases.flatMap (fun clause => clause.kinds ++ [TokenKind.control .lineFeed]) ++
            .punctuator .rightBrace :: ks = next :: others ∧
          next.isTrivia = false ∧ next.isPunctuator .comma = false := by
      rcases cases with _ | ⟨clause, cases⟩
      · exact ⟨_, _, rfl, rfl, rfl⟩
      · exact ⟨_, _, rfl, isTrivia_ofWord _, isPunctuator_ofWord _ _⟩
    have hrest := ih hcases.2 isTrivia_lineFeed
    rw [hnext] at hrest
    have hclause := enumCase_ofKinds hcases.1
      (not_begins_isPunctuator isTrivia_lineFeed htrivia hcomma others)
    rw [List.flatMap_cons, List.forall_mem_append, List.flatMap_cons, List.append_assoc,
      List.append_assoc, hnext, EnumCase.kinds, List.cons_append, List.cons_append,
      ofKinds_append_cons hlead (isTrivia_ofWord _)]
    have hclose : (⟨lead.map .bare, .bare (ofWord "case")⟩ : Terminal).isPunctuator .rightBrace =
        false := isPunctuator_ofWord "case" .rightBrace
    rcases hclause with ⟨hnames, hdone⟩ | ⟨hnames, cause, left, hfailed⟩
    · rw [enumBody_of_done hclose rfl hdone]
      exact (hrest.map rfl).congr (and_iff_right hnames).symm
    · rw [enumBody_of_failed hclose rfl hfailed]
      exact .inr ⟨fun h => hnames h.1, cause, left, rfl⟩

theorem enumeration_ofKinds (name : String) {cases : List EnumCase}
    (hcases : ∀ clause ∈ cases, clause.IsPrintable) (hlead : ∀ k ∈ lead, k.isTrivia = true)
    (ks : List TokenKind) :
    (enumeration (ofKinds (.control .space :: ofWord name :: .control .space ::
      .punctuator .leftBrace :: (lead ++
        (cases.flatMap (fun clause => clause.kinds ++ [.control .lineFeed]) ++
          .punctuator .rightBrace :: ks))))).DecidedBy
            (∀ n ∈ name :: cases.flatMap EnumCase.names, ¬ IsReserved n)
              (.enumeration name (cases.map (EnumCase.relocate .forget)), .nowhere)
                (ofKinds ks) := by
  refine Reading.DecidedBy.congr ?_ List.forall_mem_cons.symm
  refine (name_ofKinds .enumName isTrivia_space name _).andThen ?_
  have hbrace (ks : List TokenKind) :
      (token .openBrace (·.isPunctuator .leftBrace)
        (ofKinds (.control .space :: .punctuator .leftBrace :: ks))).DecidedBy True
          (.bare (.punctuator .leftBrace)) (ofKinds ks) := by
    have happend := ofKinds_append_cons isTrivia_space (k := .punctuator .leftBrace) rfl ks
    rw [List.singleton_append] at happend
    rw [happend, token]
    exact Reading.decidedBy_done _ _
  refine ((hbrace _).andThen ?_).congr (iff_of_eq (true_and _))
  exact (enumBody_ofKinds hcases hlead ks).map rfl

/-- A printed path is read back, unless a segment is reserved. -/
theorem importing_ofKinds {path : List String} (hpath : ArePrintable path)
    (hks : ¬ Begins (·.isPunctuator .period) (ofKinds ks)) :
    (importing (ofKinds (.control .space ::
      (ofNames [.punctuator .period] path ++ ks)))).DecidedBy
        (∀ n ∈ path, ¬ IsReserved n) (.importing path, .nowhere) (ofKinds ks) := by
  rcases path with _ | ⟨n, ns⟩
  · exact absurd rfl hpath.ne_nil
  have hnames := names_ofKinds .importName .pathSegment isTrivia_space (List.forall_mem_nil _) n ns
    hks
  refine hnames.map ?_
  have hsegments : (Names.toList ⟨.bare n, ns.map .bare⟩).map (·.text) = n :: ns := by
    rw [Names.toList, List.map_cons, List.map_map]
    exact congrArg (n :: ·) (List.map_id ns)
  rw [Names.range_last_bare, hsegments]

/-! ## Declarations -/

/-- Head and body make the declaration again, without its places. -/
theorem declare_ofDeclaration (d : Declaration) {keyword : Terminal}
    (hkeyword : keyword.range = .nowhere) :
    (DeclarationHead.ofDeclaration d).declare keyword (d.body.relocate .forget, .nowhere) =
      d.relocate .forget := by
  rw [DeclarationHead.declare, DeclarationHead.access_ofDeclaration, hkeyword,
    DeclarationHead.firstRange?_ofDeclaration]
  rfl

/-- The cases of an enumeration, if there are any, stand on lines of their own. -/
theorem exists_enumeration_kinds_eq (name : String) (cases : List EnumCase) :
    ∃ lead : List TokenKind, (∀ k ∈ lead, k.isTrivia = true) ∧
      (DeclarationBody.enumeration name cases).kinds =
        ofWord "enum" :: .control .space :: ofWord name :: .control .space ::
          .punctuator .leftBrace :: (lead ++
            (cases.flatMap (fun clause => clause.kinds ++ [.control .lineFeed]) ++
              [.punctuator .rightBrace])) := by
  rcases cases with _ | ⟨clause, cases⟩
  · exact ⟨[], List.forall_mem_nil _, rfl⟩
  · exact ⟨[.control .lineFeed], isTrivia_lineFeed, rfl⟩

/-- Every body is printed with its keyword in front. -/
theorem exists_body_kinds_eq_cons (body : DeclarationBody) :
    ∃ k ks, body.kinds = k :: ks ∧ IsBodyKeyword k := by
  rcases body with ⟨name, cases⟩ | path
  · obtain ⟨lead, -, hkinds⟩ := exists_enumeration_kinds_eq name cases
    exact ⟨_, _, hkinds, .inl rfl⟩
  · exact ⟨_, _, rfl, .inr rfl⟩

/-- A printed body is read back, unless it has a reserved name. -/
theorem declarationAfter_ofKinds {d : Declaration} (hd : d.IsPrintable)
    (hlead : ∀ k ∈ lead, k.isTrivia = true)
    (hks : ¬ Begins (·.isPunctuator .period) (ofKinds ks)) :
    (declarationAfter (.ofDeclaration d) (ofKinds (lead ++ (d.body.kinds ++ ks)))).DecidedBy
      (∀ n ∈ d.body.names, ¬ IsReserved n) (d.relocate .forget) (ofKinds ks) := by
  obtain ⟨as, access, body, range⟩ := d
  have hbody : body.IsPrintable := hd.body
  rcases body with ⟨name, cases⟩ | path
  · obtain ⟨inner, hinner, hkinds⟩ := exists_enumeration_kinds_eq name cases
    have hread := enumeration_ofKinds name hbody.2 hinner ks
    simp only [hkinds, List.cons_append, List.append_assoc, List.nil_append]
    rw [ofKinds_append_cons hlead (isTrivia_ofWord _), declarationAfter]
    change (Reading.map _ (enumeration _)).DecidedBy _ _ _
    exact hread.map (declare_ofDeclaration _ rfl)
  · have hread := importing_ofKinds hbody hks
    simp only [DeclarationBody.kinds, List.cons_append]
    rw [ofKinds_append_cons hlead (isTrivia_ofWord _), declarationAfter]
    change (Reading.map _ (importing _)).DecidedBy _ _ _
    exact hread.map (declare_ofDeclaration _ rfl)

/-- **A printed declaration is read back**, unless it has a reserved name. -/
theorem declaration_ofKinds {d : Declaration} (hd : d.IsPrintable)
    (hlead : ∀ k ∈ lead, k.isTrivia = true)
    (hks : ¬ Begins (·.isPunctuator .period) (ofKinds ks)) :
    (declaration (ofKinds (lead ++ (d.kinds ++ ks)))).diagnostics = [] ∧
      (declaration (ofKinds (lead ++ (d.kinds ++ ks)))).reading.DecidedBy
        (∀ n ∈ d.names, ¬ IsReserved n) (d.relocate .forget) (ofKinds ks) := by
  obtain ⟨k, body, hbody, hk⟩ := exists_body_kinds_eq_cons d.body
  obtain ⟨behind, hbehind, hhead⟩ := declarationHead_ofKinds hd hlead hk (body ++ ks)
  have hafter := declarationAfter_ofKinds hd hbehind hks
  rw [hbody, List.cons_append] at hafter
  rw [Declaration.kinds, List.append_assoc, hbody, List.cons_append, declaration,
    Declaration.names, List.forall_mem_append, List.forall_mem_map]
  rcases hhead with ⟨hnames, hdone⟩ | ⟨hnames, cause, left, hfailed⟩
  · rw [hdone]
    exact ⟨DeclarationHead.diagnostics_ofDeclaration d, hafter.congr (and_iff_right hnames).symm⟩
  · rw [hfailed]
    exact ⟨rfl, .inr ⟨fun h => hnames h.1, cause, left, rfl⟩⟩

/-- A declaration begins with the sign of an attribute, its modifier or its keyword. -/
theorem exists_kinds_eq_cons (d : Declaration) :
    ∃ k ks, d.kinds = k :: ks ∧ k.isTrivia = false ∧
      ∀ p, p ≠ .atSign → k.isPunctuator p = false := by
  obtain ⟨k, body, hbody, hk⟩ := exists_body_kinds_eq_cons d.body
  rw [Declaration.kinds, Declaration.headKinds, hbody]
  rcases d.attributes with _ | ⟨a, as⟩
  · split
    · exact ⟨k, body, rfl, hk.isTrivia, fun p _ => hk.isPunctuator p⟩
    · exact ⟨_, _, rfl, isTrivia_ofWord _, fun p _ => isPunctuator_ofWord _ p⟩
  · exact ⟨_, _, rfl, rfl, fun p hp => by simpa [TokenKind.isPunctuator] using hp.symm⟩

/-! ## Whole descriptions -/

variable {stop : Location}

theorem declarations_kinds_append {d : Declaration} (hd : d.IsPrintable) {ds : List Declaration}
    {also : Prop} (hlead : ∀ k ∈ lead, k.isTrivia = true)
    (hks : ¬ Begins (·.isPunctuator .period) (ofKinds ks))
    (hbehind : (declarations stop (ofKinds ks)).DecidedBy also ds) :
    (declarations stop (ofKinds (lead ++ (d.kinds ++ ks)))).DecidedBy
      ((∀ n ∈ d.names, ¬ IsReserved n) ∧ also) (d.relocate .forget :: ds) := by
  obtain ⟨hdiagnostics, hreading⟩ := declaration_ofKinds hd hlead hks
  obtain ⟨k, others, hkinds, htrivia, hsemicolon⟩ := exists_kinds_eq_cons d
  rw [hkinds, List.cons_append, ofKinds_append_cons hlead htrivia] at hdiagnostics hreading ⊢
  have hs : (⟨lead.map .bare, .bare k⟩ : Terminal).isPunctuator .semicolon = false :=
    hsemicolon .semicolon (by decide)
  rcases hreading with ⟨hnames, hdone⟩ | ⟨hnames, cause, left, hfailed⟩
  · rw [declarations_of_done hs hdone, hdiagnostics]
    rcases hbehind with ⟨halso, heq⟩ | ⟨halso, hne⟩
    · rw [heq]
      exact .inl ⟨⟨hnames, halso⟩, rfl⟩
    · exact .inr ⟨fun h => halso h.2, hne⟩
  · rw [declarations_of_failed hs hfailed]
    exact .inr ⟨fun h => hnames h.1, List.cons_ne_nil _ _⟩

/-- A line does not begin with a point. -/
theorem not_begins_period_lines (ds : List Declaration) :
    ¬ Begins (·.isPunctuator .period)
      (ofKinds (ds.flatMap fun d => .control .lineFeed :: d.kinds)) := by
  rcases ds with _ | ⟨d, ds⟩
  · exact not_begins_nil _
  · obtain ⟨k, others, hkinds, htrivia, hpunctuator⟩ := exists_kinds_eq_cons d
    rw [List.flatMap_cons, hkinds]
    exact not_begins_isPunctuator isTrivia_lineFeed htrivia (hpunctuator .period (by decide)) _

/-- Printed declarations are read back one a line. -/
theorem declarations_lines {ds : List Declaration} (hds : ∀ d ∈ ds, d.IsPrintable) :
    (declarations stop
      (ofKinds (ds.flatMap fun d => .control .lineFeed :: d.kinds))).DecidedBy
        (∀ n ∈ ds.flatMap Declaration.names, ¬ IsReserved n)
          (ds.map (Declaration.relocate .forget)) := by
  induction ds with
  | nil =>
    refine .inl ⟨List.forall_mem_nil _, ?_⟩
    rw [List.flatMap_nil, ofKinds_nil, declarations]
    rfl
  | cons d ds ih =>
    rw [List.forall_mem_cons] at hds
    rw [List.flatMap_cons, List.flatMap_cons, List.forall_mem_append]
    exact declarations_kinds_append hds.1 isTrivia_lineFeed (not_begins_period_lines ds) (ih hds.2)

/-- **A text description is read back** up to ranges, with nothing to be said against it, if none
of its names is reserved, and is not accepted if one is. -/
theorem declarations_ofKinds {tree : SyntaxTree} (htree : ∀ d ∈ tree.declarations, d.IsPrintable) :
    (declarations stop (ofKinds tree.kinds)).DecidedBy (∀ n ∈ tree.names, ¬ IsReserved n)
      (tree.relocate .forget).declarations := by
  obtain ⟨_ | ⟨d, ds⟩⟩ := tree
  · exact declarations_lines htree
  · rw [List.forall_mem_cons] at htree
    rw [SyntaxTree.names, List.flatMap_cons, List.forall_mem_append]
    exact declarations_kinds_append htree.1 (List.forall_mem_nil _) (not_begins_period_lines ds)
      (declarations_lines htree.2)

end DeclFront.Grammar
