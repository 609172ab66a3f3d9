import DeclFront.Proofs.Lexeme.Found
import DeclFront.Proofs.Lexeme.Numeral

/-!
# Proofs/Lexeme/Operator — operators hide no comment and are otherwise as long as they can be

Five recognizers find what is made of operator characters, and each of them could run over the mark
that begins a comment.  None does: nothing but a string or a comment has a comment starting inside
it (`hidesNoComment_next`).  What follows an operator is read off the symbols that it can be
(`isSymbol_next`).
-/

namespace DeclFront

namespace TokenKind

/-- The kind of a string literal. -/
def isString : TokenKind → Bool
  | literal (.string _ _) => true
  | _ => false

/-- The kind of a comment. -/
def isComment : TokenKind → Bool
  | comment _ => true
  | _ => false

/-- The kinds that symbols have. -/
def isSymbol : TokenKind → Bool
  | punctuator _ | operator _ => true
  | _ => false

/-- No word is a symbol. -/
theorem isSymbol_ofWord (word : String) : (ofWord word).isSymbol = false := by
  rw [ofWord]
  split
  · rfl
  · split <;> rfl

end TokenKind

/-! ## What is read -/

namespace Lexeme

open Recognizer

variable {c : Char} {cs text : List Char} {lexeme : Lexeme}

/-- **No recognizer but the one for symbols gives an operator or a punctuator.** -/
theorem isSymbol_next (h : (next c cs).kind.isSymbol = true) : IsSymbol (c :: cs) (next c cs) := by
  cases isFound_next c cs with
  | punctuator hfound _ | operator hfound _ => exact isSymbol_of_symbol? hfound
  | word _ hkind =>
    rw [hkind, TokenKind.isSymbol_ofWord] at h
    cases h
  | _ =>
    rename_i hkind
    rw [hkind] at h
    cases h

/-- Only strings and comments have a comment starting inside them. -/
def HidesNoComment (lexeme : Lexeme) : Prop :=
  lexeme.kind.isString = true ∨ lexeme.kind.isComment = true ∨
    SparesComments lexeme.chars lexeme.rest

theorem HidesNoComment.of_notMem (h : '/' ∉ lexeme.chars) : lexeme.HidesNoComment :=
  .inr (.inr (.of_notMem h))

/-- A lexeme whose words have no slash hides no comment. -/
theorem hidesNoComment_of_ofMunch {munch : Munch} {kind : String → TokenKind} {L : Language Char}
    {accepts : Char → Bool} (hreads : munch.ReadsLongest L) (hL : Munch.MadeOf L accepts)
    (hslash : accepts '/' = false) (h : ofMunch munch kind text = some lexeme) :
    lexeme.HidesNoComment :=
  .of_notMem (hL.notMem hslash (hreads.mem (read_of_ofMunch h).1))

/-- **A symbol hides no comment**, whichever way it was found. -/
theorem hidesNoComment_of_isSymbol (h : IsSymbol text lexeme) : lexeme.HidesNoComment := by
  cases h with
  | arrow rest => exact .of_notMem (by simp)
  | points hrun =>
    have hpoint (cs : List Char) : startsComment ('.' :: cs) = false :=
      startsComment_of_ne (by decide) cs
    exact .inr (.inr (.cons (hpoint _) (.cons (hpoint _) hrun.sparesComments)))
  | delimiter hp rest =>
    refine .of_notMem fun hmem => ?_
    obtain rfl := List.mem_singleton.1 hmem
    cases hp
  | run hrun => exact .inr (.inr hrun.sparesComments)

/-- **No comment starts inside a token** but inside strings and comments. -/
theorem hidesNoComment_next (c : Char) (cs : List Char) : (next c cs).HidesNoComment := by
  cases isFound_next c cs with
  | string _ hkind => exact .inl (hkind ▸ rfl)
  | number hfound =>
    obtain ⟨form, hmem⟩ := (isLongestAt_of_numeral? hfound).1.mem
    exact .of_notMem ((Munch.madeOf_texts form).notMem (by decide) hmem)
  | word hfound =>
    exact hidesNoComment_of_ofMunch Munch.readsLongest_word Munch.madeOf_words (by decide) hfound
  | quotedName hfound =>
    obtain ⟨name, rest, hread, -, hlexeme⟩ := quotedName?_eq_some_iff.1 hfound
    have hname : '/' ∉ name :=
      Munch.madeOf_words.notMem (by decide) (Munch.readsLongest_word.mem hread)
    exact .of_notMem (by simp [hlexeme, hname])
  | parameter hfound =>
    exact hidesNoComment_of_ofMunch Munch.readsLongest_parameter Munch.madeOf_parameters
      (by decide) hfound
  | comment _ hkind => exact .inr (.inl (hkind ▸ rfl))
  | punctuator hfound _ | operator hfound _ =>
    exact hidesNoComment_of_isSymbol (isSymbol_of_symbol? hfound)
  | control hfound =>
    obtain ⟨control, hcontrol, hlexeme⟩ := Option.map_eq_some_iff.1 hfound
    refine .of_notMem fun hmem => ?_
    rw [← hlexeme, List.mem_singleton] at hmem
    subst hmem
    cases hcontrol
  | nowhere hnone hlexeme =>
    obtain ⟨-, -, -, -, -, hcomment, -, -⟩ := findsNothing_iff.1 hnone
    rw [hlexeme]
    exact .inr (.inr (.cons (comment?_eq_none_iff.1 hcomment) (.nil cs)))

end Lexeme

/-! ## Operators in a text -/

/-- The kind is what a run of operator characters is: an operator of nothing else, or one of the
punctuators that such a run can be. -/
def TokenKind.IsOperatorRun : TokenKind → Prop
  | operator spelling => ∀ c ∈ spelling.toList, isOperatorChar c = true
  | punctuator p => p ∈ [.equal, .exclaim, .amp, .question]
  | _ => False

theorem TokenKind.IsOperatorRun.isSymbol {kind : TokenKind} (h : kind.IsOperatorRun) :
    kind.isSymbol = true := by
  cases kind <;> first | rfl | exact h.elim

namespace IsSymbol

variable {text : List Char} {lexeme : Lexeme} {spelling : String}

/-- **Behind a run of operator characters** nothing stands that could have continued it. -/
theorem endsRun_of_isOperatorRun (h : IsSymbol text lexeme) (hkind : lexeme.kind.IsOperatorRun) :
    EndsRun isOperatorChar lexeme.rest := by
  cases h with
  | arrow rest =>
    have harrow : Punctuator.arrow ∈ [.equal, .exclaim, .amp, .question] := hkind
    exact absurd harrow (by decide)
  | points hrun =>
    have hpoint := hkind '.' (by simp)
    cases hpoint
  | @delimiter c p hp rest => exact absurd hp (Punctuator.ofDelimiter?_ne hkind c)
  | run hrun => exact hrun.endsRun

/-- **Behind an operator that starts with two points** no point stands either. -/
theorem endsRun_of_points (h : IsSymbol text lexeme) (hkind : lexeme.kind = .operator spelling)
    (hpoints : ['.', '.'] <+: spelling.toList) : EndsRun isPointOperatorChar lexeme.rest := by
  cases h with
  | points hrun => exact hrun.endsRun
  | run hrun =>
    obtain ⟨rfl, -⟩ := TokenKind.ofOperatorRun_eq_operator_iff.1 hkind
    rw [String.toList_ofList] at hpoints
    have hpoint := hrun.accepts_of_mem '.' (hpoints.subset List.mem_cons_self)
    cases hpoint
  | _ => cases hkind

/-- **An operator is no punctuator**, and does not begin with the arrow. -/
theorem operator_ne (h : IsSymbol text lexeme) (hkind : lexeme.kind = .operator spelling) :
    spelling ∉ ["=", "!", "&", "?"] ∧ ¬ ['-', '>'] <+: spelling.toList := by
  cases h with
  | @points run rest hrun =>
    cases hkind
    have hpunctuators : ∀ word ∈ ["=", "!", "&", "?"], word.toList.head? ≠ some '.' := by decide
    refine ⟨fun hmem => hpunctuators _ hmem (by rw [String.toList_ofList]; rfl), ?_⟩
    rw [String.toList_ofList]
    rintro ⟨behind, ⟨⟩⟩
  | run hrun harrow =>
    obtain ⟨rfl, hspelling⟩ := TokenKind.ofOperatorRun_eq_operator_iff.1 hkind
    exact ⟨hspelling, by rwa [String.toList_ofList]⟩
  | _ => cases hkind

end IsSymbol

/-- What stands behind a place inside a token is the end of the token and what stands behind it. -/
theorem Token.drop_chars {front back : List Token} {t : Token} {n : Nat}
    (hle : (chars front).length ≤ n) (hlt : n < (chars front).length + t.spelling.toList.length) :
    ∃ more, more <:+ t.spelling.toList ∧ more ≠ [] ∧
      (chars (front ++ t :: back)).drop n = more ++ chars back := by
  refine ⟨t.spelling.toList.drop (n - (chars front).length), List.drop_suffix _ _, fun hnil => ?_,
    ?_⟩
  · rw [List.drop_eq_nil_iff] at hnil
    omega
  · rw [chars_append, chars_cons, List.drop_append, List.drop_of_length_le hle, List.nil_append,
      List.drop_append_of_le_length (by omega)]

/-- Every character of a text lies in one of its tokens. -/
theorem Token.exists_of_lt_length_chars {tokens : List Token} {n : Nat}
    (h : n < (chars tokens).length) :
    ∃ front t back, tokens = front ++ t :: back ∧ (chars front).length ≤ n ∧
      n < (chars front).length + t.spelling.toList.length := by
  induction tokens generalizing n with
  | nil => cases h
  | cons t tokens ih =>
    by_cases hn : n < t.spelling.toList.length
    · exact ⟨[], t, tokens, rfl, Nat.zero_le n, by rwa [chars_nil, List.length_nil, Nat.zero_add]⟩
    · rw [chars_cons, List.length_append] at h
      obtain ⟨front, u, back, rfl, hle, hlt⟩ := ih (n := n - t.spelling.toList.length) (by omega)
      refine ⟨t :: front, u, back, rfl, ?_, ?_⟩ <;> rw [chars_cons, List.length_append] <;> omega

namespace TokenStream

/-- The token stands in the stream with so many characters in front of it. -/
def HasTokenAt (s : TokenStream) (start : Nat) (t : Token) : Prop :=
  ∃ front back, s.tokens = front ++ t :: back ∧ (Token.chars front).length = start

/-- Operators hide no comment of the text and are otherwise as long as they can be. -/
structure OperatorsSpareComments (s : TokenStream) (text : List Char) : Prop where
  /-- Where a mark stands, outside strings and not further on in a comment, a comment starts. -/
  comment_of_mark : ∀ n, ∀ mark ∈ commentMarks, mark <+: text.drop n →
    (∀ start t, s.HasTokenAt start t → start ≤ n → n < start + t.spelling.length →
      t.kind.isString = false ∧ (t.kind.isComment = true → start = n)) →
    ∃ t, s.HasTokenAt n t ∧ t.kind.isComment = true
  not_infix : ∀ t ∈ s.tokens, ∀ spelling, t.kind = .operator spelling →
    ∀ mark ∈ commentMarks, ¬ mark <:+: spelling.toList
  endsRun : ∀ front t back, s.tokens = front ++ t :: back → t.kind.IsOperatorRun →
    EndsRun isOperatorChar (Token.chars back)
  endsRun_of_points : ∀ front t back spelling, s.tokens = front ++ t :: back →
    t.kind = .operator spelling → ['.', '.'] <+: spelling.toList →
      EndsRun isPointOperatorChar (Token.chars back)
  operator_ne : ∀ t ∈ s.tokens, ∀ spelling, t.kind = .operator spelling →
    spelling ∉ ["=", "!", "&", "?"] ∧ ¬ ['-', '>'] <+: spelling.toList

variable {path text : String} {front back : List Token} {t : Token}

/-- Outside strings and comments no comment starts inside a token. -/
theorem sparesComments_of_ofText (h : (ofText path text).tokens = front ++ t :: back)
    (hstring : t.kind.isString = false) (hcomment : t.kind.isComment = false) :
    SparesComments t.spelling.toList (Token.chars back) := by
  obtain ⟨c, cs, -, -, hnext⟩ := Token.exists_next_of_ofText h
  have hhides := Lexeme.hidesNoComment_next c cs
  rw [hnext] at hhides
  obtain hkind | hkind | hspares := hhides
  · exact absurd (hstring.symm.trans hkind) Bool.false_ne_true
  · exact absurd (hcomment.symm.trans hkind) Bool.false_ne_true
  · exact hspares

/-- The symbol that a token of a text was read as. -/
theorem isSymbol_of_ofText (h : (ofText path text).tokens = front ++ t :: back)
    (hkind : t.kind.isSymbol = true) :
    ∃ chars, IsSymbol chars ⟨t.kind, t.spelling.toList, Token.chars back⟩ := by
  obtain ⟨c, cs, -, -, hnext⟩ := Token.exists_next_of_ofText h
  have hsymbol := @Lexeme.isSymbol_next c cs (by rwa [hnext])
  exact ⟨c :: cs, hnext ▸ hsymbol⟩

/-- **Operators hide no comment and are otherwise as long as they can be**, in every text. -/
theorem operatorsSpareComments_ofText (path text : String) :
    (ofText path text).OperatorsSpareComments text.toList where
  comment_of_mark n mark hmark hprefix houtside := by
    have hstarts := startsComment_iff.2 ⟨mark, hmark, hprefix⟩
    have hn : n < (Token.chars (ofText path text).tokens).length := by
      rw [chars_tokens_ofText]
      by_contra hle
      rw [List.drop_of_length_le (by omega)] at hstarts
      cases hstarts
    obtain ⟨front, t, back, h, hle, hlt⟩ := Token.exists_of_lt_length_chars hn
    obtain ⟨hstring, hcomment⟩ := houtside _ t ⟨front, back, h, rfl⟩ hle (by
      rwa [← String.length_toList])
    cases hkind : t.kind.isComment with
    | true => exact ⟨t, ⟨front, back, h, hcomment hkind⟩, hkind⟩
    | false =>
      -- The mark would stand inside a token that hides no comment.
      have hspares := sparesComments_of_ofText h hstring hkind
      obtain ⟨more, hmore, hne, hdrop⟩ := Token.drop_chars hle hlt
      rw [← chars_tokens_ofText path text, h, hdrop, hspares more hmore hne] at hstarts
      cases hstarts
  not_infix t ht spelling hkind mark hmark := by
    obtain ⟨front, back, h⟩ := List.append_of_mem ht
    have hspares := sparesComments_of_ofText h (by rw [hkind]; rfl) (by rw [hkind]; rfl)
    have hspelling : t.spelling = spelling := by rw [Token.spelling, hkind, TokenKind.spelling]
    exact hspelling ▸ hspares.not_infix hmark
  endsRun front t back h hkind := by
    obtain ⟨_, hsymbol⟩ := isSymbol_of_ofText h hkind.isSymbol
    exact hsymbol.endsRun_of_isOperatorRun hkind
  endsRun_of_points front t back spelling h hkind hpoints := by
    obtain ⟨_, hsymbol⟩ := isSymbol_of_ofText h (by rw [hkind]; rfl)
    exact hsymbol.endsRun_of_points hkind hpoints
  operator_ne t ht spelling hkind := by
    obtain ⟨front, back, h⟩ := List.append_of_mem ht
    obtain ⟨_, hsymbol⟩ := isSymbol_of_ofText h (by rw [hkind]; rfl)
    exact hsymbol.operator_ne hkind

end TokenStream

end DeclFront
