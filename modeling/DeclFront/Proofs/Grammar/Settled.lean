import DeclFront.Proofs.Grammar.Derivation
import DeclFront.Proofs.Grammar.Terminals
import DeclFront.Proofs.Lexeme.Truncation

/-!
# Proofs/Grammar/Settled — a declaration holds nothing that what follows it could change

The marks, words and names of a declaration are of plain kinds.  All else in it is trivia, which a
token of the declaration follows, or stands between the parentheses of an attribute.  So the kinds
of its tokens are settled (`DeclarationTree.settled_yield`).
-/

namespace DeclFront.Grammar

open TokenKind

/-! ## Terminals of plain kinds -/

/-- The terminals are of plain kinds, if the names that they give are words and parameters. -/
def ArePlain (terminals : List Terminal) : Prop :=
  ∀ t ∈ terminals, t.token.kind.GivesName → t.token.kind.IsPlain

theorem ArePlain.cons {t : Terminal} {ts : List Terminal}
    (ht : t.token.kind.GivesName → t.token.kind.IsPlain) (hts : ArePlain ts) : ArePlain (t :: ts) :=
  List.forall_mem_cons.2 ⟨ht, hts⟩

theorem ArePlain.append {ts us : List Terminal} (hts : ArePlain ts) (hus : ArePlain us) :
    ArePlain (ts ++ us) :=
  List.forall_mem_append.2 ⟨hts, hus⟩

theorem arePlain_nil : ArePlain [] := List.forall_mem_nil _

theorem arePlain_flatMap {α : Type} {f : α → List Terminal} (h : ∀ a, ArePlain (f a))
    (xs : List α) : ArePlain (xs.flatMap f) := by
  intro t ht
  obtain ⟨a, -, hta⟩ := List.mem_flatMap.1 ht
  exact h a t hta

/-- A mark by itself on a character. -/
theorem Mark.isPlain {p : Punctuator} (mark : Mark p) {c : Char}
    (hp : Punctuator.ofDelimiter? c = some p) (hc : c ≠ '\x60') :
    mark.terminal.token.kind.IsPlain := by
  rw [mark.kind_eq]
  exact .delimiter hp hc

/-- A keyword whose word is a name is plain. -/
theorem Word.isPlain {word : String} (leaf : Word word) (hword : IsName word.toList) :
    leaf.terminal.token.kind.IsPlain := by
  obtain ⟨⟨leading, kind, range⟩, hkeyword⟩ := leaf
  cases kind with
  | keyword k =>
    obtain rfl : k.word = word := beq_iff_eq.1 hkeyword
    exact .name hword
  | _ => cases hkeyword

/-- A name is plain, unless it was written between backticks. -/
theorem NameLeaf.isPlain (leaf : NameLeaf) (h : leaf.terminal.token.kind.GivesName) :
    leaf.terminal.token.kind.IsPlain := by
  obtain ⟨⟨leading, kind, range⟩, text, hname⟩ := leaf
  have htext := h text hname
  cases kind with
  | identifier n =>
    obtain rfl := Option.some.inj hname
    exact .name htext
  | quotedIdentifier n => exact .quotedName n
  | keyword k =>
    rw [name?] at hname
    split at hname
    · obtain rfl := Option.some.inj hname
      exact .name htext
    · cases hname
  | _ => cases hname

theorem AccessLeaf.isPlain (leaf : AccessLeaf) : leaf.terminal.token.kind.IsPlain := by
  obtain ⟨⟨leading, kind, range⟩, level, hlevel⟩ := leaf
  cases kind with
  | keyword k =>
    refine .name ?_
    change AccessLevel.ofWord? k.word = some level at hlevel
    change IsName k.word.toList
    generalize k.word = word at hlevel
    unfold AccessLevel.ofWord? at hlevel
    split at hlevel
    case h_4 => cases hlevel
    all_goals exact isName_of_all (by decide)
  | _ => cases hlevel

/-- A list of names is plain, its separators being marks. -/
theorem NamesTree.arePlain {separator : Punctuator} (tree : NamesTree separator) {c : Char}
    (hp : Punctuator.ofDelimiter? c = some separator) (hc : c ≠ '\x60') : ArePlain tree.yield :=
  .cons tree.first.isPlain <| arePlain_flatMap
    (fun (mark, leaf) => .cons (fun _ => mark.isPlain hp hc) (.cons leaf.isPlain arePlain_nil)) _

theorem ModifierTree.arePlain (tree : ModifierTree) : ArePlain tree.yield := by
  obtain ⟨keyword, _ | ⟨opening, word, closing⟩⟩ := tree
  · exact .cons (fun _ => keyword.isPlain) arePlain_nil
  · have hset : IsName "set".toList := isName_of_all (by decide)
    exact .cons (fun _ => keyword.isPlain) <|
      .cons (fun _ => opening.isPlain (c := '(') rfl (by decide)) <|
      .cons (fun _ => word.isPlain hset) <|
      .cons (fun _ => closing.isPlain (c := ')') rfl (by decide)) arePlain_nil

theorem CaseTree.arePlain (tree : CaseTree) : ArePlain tree.yield :=
  .cons (fun _ => tree.keyword.isPlain (isName_of_all (by decide)))
    (tree.elements.arePlain (c := ',') rfl (by decide))

theorem MemberTree.arePlain : ∀ tree : MemberTree, ArePlain tree.yield
  | clause tree => tree.arePlain
  | semicolon mark => .cons (fun _ => mark.isPlain (c := ';') rfl (by decide)) arePlain_nil

/-- **All that a body is made of is plain.** -/
theorem BodyTree.arePlain : ∀ tree : BodyTree, ArePlain tree.yield
  | enumeration tree =>
    .cons (fun _ => tree.keyword.isPlain (isName_of_all (by decide))) <|
    .cons tree.name.isPlain <|
    .cons (fun _ => tree.opening.isPlain (c := '\x7b') rfl (by decide)) <|
    .append (arePlain_flatMap MemberTree.arePlain _)
      (.cons (fun _ => tree.closing.isPlain (c := '\x7d') rfl (by decide)) arePlain_nil)
  | importing tree =>
    .cons (fun _ => tree.keyword.isPlain (isName_of_all (by decide)))
      (tree.path.arePlain (c := '.') rfl (by decide))

/-! ## Settled terminals -/

/-- A terminal as it is read from a text: trivia and a significant token, whose name, if it has one,
is a word or a parameter. -/
structure IsRead (t : Terminal) : Prop where
  isRegular : t.IsRegular
  givesName : t.token.kind.GivesName

/-- The terminals of a text have been read from it. -/
theorem isRead_of_mem_ofTokens {path : String} {p : Position} {text : List Char} {t : Terminal}
    (ht : t ∈ Terminal.ofTokens (Token.ofText path p text)) : IsRead t :=
  ⟨(Terminal.exists_trailing _).1 t ht,
    isName_of_mem_ofText (Terminal.token_mem_of_mem_ofTokens ht)⟩

/-- The kinds of the tokens that the terminals are made of. -/
def kinds (terminals : List Terminal) : List TokenKind :=
  (Terminal.tokens terminals).map Token.kind

theorem kinds_append (ts us : List Terminal) : kinds (ts ++ us) = kinds ts ++ kinds us := by
  rw [kinds, Terminal.tokens_append, List.map_append]
  rfl

theorem kinds_cons (t : Terminal) (ts : List Terminal) :
    kinds (t :: ts) = t.leading.map Token.kind ++ t.token.kind :: kinds ts := by
  rw [kinds, Terminal.tokens_cons, List.map_append]
  rfl

/-- **Terminals of plain kinds are settled**, trivia and all. -/
theorem settled_of_arePlain {ts : List Terminal} (hts : ArePlain ts) (hread : ∀ t ∈ ts, IsRead t) :
    Settled (kinds ts) := by
  induction ts with
  | nil => exact trivial
  | cons t ts ih =>
    rw [List.forall_mem_cons] at hread
    have ht : kinds [t] = t.leading.map Token.kind ++ [t.token.kind] := by
      simp [kinds, Terminal.tokens]
    rw [← List.singleton_append, kinds_append, ht]
    refine Settled.append ?_ (ih (fun u hu => hts u (List.mem_cons_of_mem t hu)) hread.2)
    exact settled_trivia_append (List.forall_mem_map.2 hread.1.isRegular.1)
      (hts t List.mem_cons_self hread.1.givesName)

/-- The tokens of a clause: no trivia stands in front of the parenthesis that opens it. -/
theorem ClauseTree.tokens_yield (clause : ClauseTree) :
    Terminal.tokens clause.yield = clause.opening.terminal.token ::
      (Terminal.tokens clause.inner ++ clause.closing.terminal.leading) ++
        [clause.closing.terminal.token] := by
  have hleading : clause.opening.terminal.leading = [] := List.isEmpty_iff.1 clause.isAdjacent
  rw [yield, Terminal.tokens_cons, Terminal.tokens_append, Terminal.tokens_cons, hleading]
  simp [Terminal.tokens]

/-- A clause ends with the parenthesis that closes it. -/
theorem ClauseTree.exists_tokens_eq (clause : ClauseTree) :
    ∃ inner, Terminal.tokens clause.yield = inner ++ [clause.closing.terminal.token] :=
  ⟨_, clause.tokens_yield⟩

/-- An attribute is settled, since its clause ends with a parenthesis. -/
theorem AttributeTree.settled_yield (tree : AttributeTree) (hread : ∀ t ∈ tree.yield, IsRead t) :
    Settled (kinds tree.yield) := by
  obtain ⟨sign, name, clause⟩ := tree
  have hfront : ArePlain [sign.terminal, name.terminal] :=
    .cons (fun _ => sign.isPlain (c := '@') rfl (by decide)) (.cons name.isPlain arePlain_nil)
  have hyield : yield ⟨sign, name, clause⟩ =
      [sign.terminal, name.terminal] ++ (clause.map ClauseTree.yield).getD [] := rfl
  rw [hyield] at hread ⊢
  rw [kinds_append]
  refine (settled_of_arePlain hfront fun t ht => hread t (List.mem_append_left _ ht)).append ?_
  rcases clause with _ | clause
  · exact trivial
  · obtain ⟨inner, hinner⟩ := clause.exists_tokens_eq
    rw [kinds, Option.map_some, Option.getD_some, hinner, List.map_append, List.map_singleton,
      clause.closing.kind_eq]
    exact settled_append_closing _

/-- **The kinds of a declaration are settled.** -/
theorem DeclarationTree.settled_yield (tree : DeclarationTree)
    (hread : ∀ t ∈ tree.yield, IsRead t) : Settled (kinds tree.yield) := by
  have hattributes : ∀ attributes : List AttributeTree,
      (∀ t ∈ attributes.flatMap AttributeTree.yield, IsRead t) →
        Settled (kinds (attributes.flatMap AttributeTree.yield)) := by
    intro attributes hread
    induction attributes with
    | nil => exact trivial
    | cons a others ih =>
      rw [List.flatMap_cons, List.forall_mem_append] at hread
      rw [List.flatMap_cons, kinds_append]
      exact (a.settled_yield hread.1).append (ih hread.2)
  have hmodifier : ArePlain ((tree.modifier.map ModifierTree.yield).getD []) := by
    rcases tree.modifier with _ | modifier
    · exact arePlain_nil
    · exact modifier.arePlain
  rw [yield, headYield, List.append_assoc, List.forall_mem_append] at hread
  rw [yield, headYield, List.append_assoc, kinds_append]
  exact (hattributes _ hread.1).append
    (settled_of_arePlain (hmodifier.append tree.body.arePlain) hread.2)

end DeclFront.Grammar
