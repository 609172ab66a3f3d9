import DeclFront.Proofs.Grammar.Derivation
import DeclFront.Proofs.Grammar.Terminals
import DeclFront.Proofs.Lexeme.Name
import DeclFront.Proofs.Printing.Kinds

/-!
# Proofs/Printing/Printable — syntax trees whose text is read as it is written

A tree is *printable* when its names are ones that tokens give, its lists of names are not empty,
and the arguments of its attributes are clauses that are legible in front of anything.  The token
kinds that its text description is written in are then the ones read from it
(`SyntaxTree.map_kind_ofText_text`).
-/

namespace DeclFront

open TokenKind Grammar

/-! ## Printable trees -/

/-- The kinds of the tokens that a clause is made of. -/
def Grammar.ClauseTree.kinds (clause : ClauseTree) : List TokenKind :=
  (Terminal.tokens clause.yield).map Token.kind

/-- A clause whose tokens are read whatever follows it. -/
structure Grammar.ClauseTree.IsLegible (clause : ClauseTree) : Prop where
  regular : ∀ t ∈ clause.yield, t.IsRegular
  legible : ∀ rest, Legible clause.kinds rest

/-- Names can be written one after another, and there is one at least. -/
structure ArePrintable (names : List String) : Prop where
  ne_nil : names ≠ []
  isName : ∀ n ∈ names, IsName n.toList

/-- The name is one, and the arguments, where there are any, are the text of a clause. -/
structure Attribute.IsPrintable (a : Attribute) : Prop where
  name : IsName a.name.toList
  arguments : ∀ text ∈ a.arguments, ∃ clause : ClauseTree, clause.IsLegible ∧ clause.text = text

/-- The elements are names. -/
def EnumCase.IsPrintable (clause : EnumCase) : Prop := ArePrintable clause.names

/-- All names in the body are names. -/
def DeclarationBody.IsPrintable : DeclarationBody → Prop
  | enumeration name cases => IsName name.toList ∧ ∀ clause ∈ cases, clause.IsPrintable
  | importing path => ArePrintable path

/-- A declaration that can be read back from its text. -/
structure Declaration.IsPrintable (d : Declaration) : Prop where
  attributes : ∀ a ∈ d.attributes, a.IsPrintable
  body : d.body.IsPrintable

/-! ## Legibility -/

/-- What may follow a text that ends in a bare name. -/
def EndsNameAt (rest : List Char) : Prop := ∀ c ∈ rest.head?, endsName c = true

theorem endsNameAt_nil : EndsNameAt [] := nofun

theorem endsNameAt_cons {c : Char} (hc : endsName c = true) (rest : List Char) :
    EndsNameAt (c :: rest) := by
  rintro _ ⟨⟩
  exact hc

section

variable {rest : List Char} {ks : List TokenKind}

/-- A list of parts is legible when each part is so in front of the parts and the text behind it. -/
theorem legible_flatMap {α : Type} {f : α → List TokenKind} (behind : List Char → Prop)
    {xs : List α} (hlegible : ∀ x ∈ xs, ∀ rest, behind rest → Legible (f x) rest)
    (hbehind : ∀ x ∈ xs, ∀ rest, behind (chars (f x) ++ rest)) (h : behind rest) :
    Legible (xs.flatMap f) rest := by
  induction xs with
  | nil => exact trivial
  | cons x xs ih =>
    rw [List.forall_mem_cons] at hlegible hbehind
    rw [List.flatMap_cons, legible_append_iff]
    refine ⟨hlegible.1 _ ?_, ih hlegible.2 hbehind.2⟩
    rcases xs with _ | ⟨y, ys⟩
    · exact h
    · rw [List.flatMap_cons, chars_append, List.append_assoc]
      exact hbehind.2 y List.mem_cons_self _

theorem legible_control_cons (k : Control) (h : Legible ks rest) :
    Legible (.control k :: ks) rest := ⟨legibleBefore_control k _, h⟩

/-- A delimiter that begins nothing longer is legible in front of anything. -/
theorem legible_delimiter_cons {p : Punctuator} {c : Char} (hp : Punctuator.ofDelimiter? c = some p)
    (hc : c ≠ '\x60' ∧ c ≠ '.') (h : Legible ks rest) : Legible (.punctuator p :: ks) rest :=
  ⟨legibleBefore_punctuator hp hc.1 fun hpoint => absurd hpoint hc.2, h⟩

/-- A word is legible in front of what ends names. -/
theorem legible_word_cons {word : String} (hword : IsName word.toList)
    (hbehind : EndsNameAt (chars ks ++ rest)) (h : Legible ks rest) :
    Legible (ofWord word :: ks) rest := ⟨legibleBefore_name hword hbehind, h⟩

end

/-! ### Names -/

/-- No name begins with a point. -/
theorem IsName.head?_ne_point {chars : List Char} (h : IsName chars) : chars.head? ≠ some '.' := by
  rcases h with ⟨hc, -⟩ | -
  · rintro ⟨⟩
    exact absurd hc (by decide)
  · nofun

/-- A further element: a comma, a blank and a name. -/
theorem legible_comma_name {n : String} (hn : IsName n.toList) {rest : List Char}
    (hrest : EndsNameAt rest) :
    Legible [.punctuator .comma, .control .space, ofWord n] rest := by
  have hword : Legible [ofWord n] rest := legible_word_cons hn hrest trivial
  exact legible_delimiter_cons (c := ',') rfl (by decide) (legible_control_cons _ hword)

/-- A further segment of a path: a point and a name. -/
theorem legible_period_name {n : String} (hn : IsName n.toList) {rest : List Char}
    (hrest : EndsNameAt rest) : Legible [.punctuator .period, ofWord n] rest := by
  refine ⟨legibleBefore_punctuator (c := '.') rfl (by decide) fun _ => ?_,
    legible_word_cons hn hrest trivial⟩
  rw [chars_cons, spelling_ofWord, chars_nil, List.append_nil]
  have hhead := hn.head?_ne_point
  rcases hchars : n.toList with _ | ⟨c, cs⟩
  · rw [hchars] at hn
    rcases hn
  · rwa [hchars] at hhead

/-- Names are legible when each is so behind the gap. -/
theorem legible_ofNames {gap : List TokenKind} {names : List String} {rest : List Char}
    (hnames : ArePrintable names) (hgap : ∀ text, EndsNameAt (chars gap ++ text))
    (hlegible : ∀ n, IsName n.toList → ∀ text, EndsNameAt text → Legible (gap ++ [ofWord n]) text)
    (hrest : EndsNameAt rest) : Legible (ofNames gap names) rest := by
  obtain ⟨hne, hnames⟩ := hnames
  rcases names with _ | ⟨n, ns⟩
  · exact absurd rfl hne
  rw [List.forall_mem_cons] at hnames
  have hbehind (m : String) (text : List Char) :
      EndsNameAt (chars (gap ++ [ofWord m]) ++ text) := by
    rw [chars_append, List.append_assoc]
    exact hgap _
  have hns : Legible (ns.flatMap fun m => gap ++ [ofWord m]) rest :=
    legible_flatMap EndsNameAt (fun m hm => hlegible m (hnames.2 m hm)) (fun m _ => hbehind m) hrest
  refine legible_word_cons hnames.1 ?_ hns
  rcases ns with _ | ⟨m, ms⟩
  · exact hrest
  · rw [List.flatMap_cons, chars_append, List.append_assoc]
    exact hbehind m _

/-! ### Attributes -/

namespace Grammar.ClauseTree

variable {clause : ClauseTree}

theorem chars_kinds (clause : ClauseTree) : chars clause.kinds = clause.text.toList := by
  rw [kinds, chars_map_kind, text, ← Terminal.join_tokens, String.toList_join, List.flatMap_map]
  rfl

/-- A clause begins with its opening parenthesis. -/
theorem exists_kinds_eq_cons (clause : ClauseTree) :
    ∃ ks, clause.kinds = .punctuator .leftParen :: ks := by
  have hleading : clause.opening.terminal.leading = [] := List.isEmpty_iff.1 clause.isAdjacent
  rw [kinds, yield, Terminal.tokens_cons, hleading, List.nil_append, List.map_cons,
    clause.opening.kind_eq]
  exact ⟨_, rfl⟩

/-- The text of a legible clause is read as the clause. -/
theorem IsLegible.ofText_text (h : clause.IsLegible) :
    TokenKind.ofText clause.text = clause.kinds := by
  rw [TokenKind.ofText, ← clause.chars_kinds]
  exact map_kind_ofText "" .first (h.legible [])

/-- A clause begins with its parenthesis, which ends the name in front. -/
theorem endsNameAt_text (clause : ClauseTree) (rest : List Char) :
    EndsNameAt (clause.text.toList ++ rest) := by
  obtain ⟨ks, hks⟩ := clause.exists_kinds_eq_cons
  rw [← clause.chars_kinds, hks]
  exact endsNameAt_cons (c := '(') (by decide) _

end Grammar.ClauseTree

/-- A printable attribute is legible in front of what ends names; so it is for each part below. -/
theorem Attribute.legible_kinds {a : Attribute} (h : a.IsPrintable) {rest : List Char}
    (hrest : EndsNameAt rest) : Legible a.kinds rest := by
  obtain ⟨hname, harguments⟩ := h
  refine legible_delimiter_cons (c := '@') rfl (by decide) ?_
  rcases ha : a.arguments with _ | text
  · rw [Option.getD_none, TokenKind.ofText_empty]
    exact legible_word_cons hname hrest trivial
  · obtain ⟨clause, hclause, rfl⟩ := harguments text ha
    rw [Option.getD_some]
    refine legible_word_cons hname ?_ ?_
    · rw [chars_ofText]
      exact clause.endsNameAt_text rest
    · rw [hclause.ofText_text]
      exact hclause.legible rest

/-! ### Declarations -/

theorem legible_word_space_cons {word : String} (hword : IsName word.toList) {ks : List TokenKind}
    {rest : List Char} (h : Legible ks rest) :
    Legible (ofWord word :: .control .space :: ks) rest :=
  legible_word_cons hword (endsNameAt_cons (c := ' ') (by decide) _) (legible_control_cons _ h)

/-- Parts that end in a control are legible in front of anything. -/
theorem legible_append_control {ks : List TokenKind} {k : Control}
    (hk : endsName k.char = true) (h : ∀ rest, EndsNameAt rest → Legible ks rest)
    (rest : List Char) : Legible (ks ++ [.control k]) rest := by
  refine legible_append_iff.2 ⟨h _ ?_, legible_control_cons k trivial⟩
  rw [chars_cons, spelling_control, Char.toString_eq_singleton, String.toList_singleton]
  exact endsNameAt_cons hk _

theorem EnumCase.legible_kinds {clause : EnumCase} (h : clause.IsPrintable) {rest : List Char}
    (hrest : EndsNameAt rest) : Legible clause.kinds rest :=
  legible_word_space_cons (isName_of_all (by decide))
    (legible_ofNames h (fun _ => endsNameAt_cons (c := ',') (by decide) _)
      (fun _ hn _ => legible_comma_name hn) hrest)

theorem DeclarationBody.legible_kinds {body : DeclarationBody} (h : body.IsPrintable)
    {rest : List Char} (hrest : EndsNameAt rest) : Legible body.kinds rest := by
  have hclose : Legible [.punctuator .rightBrace] rest :=
    legible_delimiter_cons (c := '\x7d') rfl (by decide) trivial
  rcases body with ⟨name, _ | ⟨clause, clauses⟩⟩ | path
  · refine legible_word_space_cons (isName_of_all (by decide)) ?_
    refine legible_word_space_cons h.1 ?_
    exact legible_delimiter_cons (c := '\x7b') rfl (by decide) hclose
  · refine legible_word_space_cons (isName_of_all (by decide)) ?_
    refine legible_word_space_cons h.1 ?_
    refine legible_delimiter_cons (c := '\x7b') rfl (by decide) (legible_control_cons _ ?_)
    refine legible_append_iff.2 ⟨?_, hclose⟩
    exact legible_flatMap (fun _ => True)
      (fun c hc text _ =>
        legible_append_control (by decide) (fun _ => c.legible_kinds (h.2 c hc)) text)
      (fun _ _ _ => trivial) trivial
  · refine legible_word_space_cons (isName_of_all (by decide)) ?_
    exact legible_ofNames h (fun _ => endsNameAt_cons (c := '.') (by decide) _)
      (fun _ hn _ => legible_period_name hn) hrest

namespace Declaration

/-- The head of a printable declaration ends with a blank, so anything may follow. -/
theorem legible_headKinds {d : Declaration} (h : d.IsPrintable) (rest : List Char) :
    Legible d.headKinds rest := by
  refine legible_append_iff.2 ⟨?_, ?_⟩
  · exact legible_flatMap (fun _ => True)
      (fun a ha text _ =>
        legible_append_control (by decide) (fun _ => a.legible_kinds (h.attributes a ha)) text)
      (fun _ _ _ => trivial) trivial
  · split
    · exact trivial
    · refine legible_word_space_cons ?_ trivial
      rename_i haccess
      rcases hlevel : d.access with _ | _ | _ | _
      · exact absurd hlevel haccess
      all_goals exact isName_of_all (by decide)

/-- **A printable declaration is legible.** -/
theorem legible_kinds {d : Declaration} (h : d.IsPrintable) {rest : List Char}
    (hrest : EndsNameAt rest) : Legible d.kinds rest :=
  legible_append_iff.2 ⟨legible_headKinds h _, DeclarationBody.legible_kinds h.body hrest⟩

end Declaration

namespace SyntaxTree

variable {tree : SyntaxTree}

/-- A tree of printable declarations is legible to its end. -/
theorem legible_kinds (h : ∀ d ∈ tree.declarations, d.IsPrintable) : Legible tree.kinds [] := by
  obtain ⟨_ | ⟨d, ds⟩⟩ := tree
  · exact trivial
  rw [List.forall_mem_cons] at h
  have hbehind (e : Declaration) (text : List Char) :
      EndsNameAt (chars (.control .lineFeed :: e.kinds) ++ text) :=
    endsNameAt_cons (c := '\n') (by decide) _
  have hds : Legible (ds.flatMap fun e => .control .lineFeed :: e.kinds) [] :=
    legible_flatMap EndsNameAt
      (fun e he _ htext => legible_control_cons _ (Declaration.legible_kinds (h.2 e he) htext))
      (fun e _ => hbehind e) endsNameAt_nil
  refine legible_append_iff.2 ⟨Declaration.legible_kinds h.1 ?_, hds⟩
  rcases ds with _ | ⟨e, es⟩
  · exact endsNameAt_nil
  · rw [List.flatMap_cons, chars_append, List.append_assoc]
    exact hbehind e _

/-- **The text of a printable tree is read as it is written.** -/
theorem map_kind_ofText_text (h : ∀ d ∈ tree.declarations, d.IsPrintable) (path : String) :
    (TokenStream.ofText path tree.text).tokens.map Token.kind = tree.kinds := by
  rw [TokenStream.ofText, ← tree.chars_kinds]
  exact map_kind_ofText path .first (legible_kinds h)

end SyntaxTree

end DeclFront
