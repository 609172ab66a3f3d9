import DeclFront.Proofs.Lexeme.Lookahead
import DeclFront.Proofs.Lexeme.Name

/-!
# Proofs/Lexeme/Truncation — token kinds that are read when the text behind them is cut off

Cut a text off behind a token, and a token in front of the cut may be read in another way: a
backtick in front of a name that nothing closes is invalid, but a mark by itself once the name is
cut off.  *Plain* kinds have looked one character ahead at most and are read as before
(`IsPlain.truncate`); so is a comment if something is left behind it (`legibleBefore_comment`), and
anything if a closing parenthesis is (`legibleBefore_truncate`).  Kinds of which each is one of
these are *settled*, and are read from their own spelling alone (`legible_nil_of_settled`).
-/

namespace DeclFront

/-! ## Words cut off -/

namespace Munch

/-- A word in front of a shorter text is the same word. -/
theorem read_truncate {accepts continues : Char → Bool} {front rest rest' : List Char}
    (h : ((one accepts).seq (many continues)).read (front ++ rest) = some (front, rest))
    (hrest : rest' = [] ∨ rest'.head? = rest.head?) :
    ((one accepts).seq (many continues)).read (front ++ rest') = some (front, rest') := by
  obtain ⟨c, cs, rfl, hc, hcs, -, hnext⟩ := read_one_seq_many_eq_some_iff.1 h
  refine read_one_seq_many_eq_some_iff.2 ⟨c, cs, rfl, hc, hcs, rfl, ?_⟩
  rcases hrest with rfl | hrest
  · exact fun d hd => absurd hd (Option.not_mem_none d)
  · rwa [hrest]

/-- Where a word can begin, one is read. -/
theorem exists_read_one_seq_many {accepts : Char → Bool} (continues : Char → Bool) {c : Char}
    (hc : accepts c = true) (cs : List Char) :
    ∃ split, ((one accepts).seq (many continues)).read (c :: cs) = some split := by
  simp [seq, one, many, hc]

end Munch

namespace Lexeme

variable {c : Char} {cs rest rest' : List Char} {k : TokenKind}

/-- A word ends where it does by the next character alone. -/
theorem word?_truncate (hc : isIdentifierHead c = true)
    (h : next c (cs ++ rest) = ⟨k, c :: cs, rest⟩)
    (hrest : rest' = [] ∨ rest'.head? = rest.head?) :
    next c (cs ++ rest') = ⟨k, c :: cs, rest'⟩ := by
  obtain ⟨⟨front, behind⟩, hread⟩ :=
    Munch.exists_read_one_seq_many isIdentifierChar hc (cs ++ rest)
  have hword : word? (c :: (cs ++ rest)) =
      some ⟨TokenKind.ofWord (String.ofList front), front, behind⟩ := congrArg (Option.map _) hread
  rw [next_word hc hword] at h
  obtain ⟨rfl, rfl, rfl⟩ := Lexeme.mk.inj h
  rw [← List.cons_append] at hread
  exact next_word hc (congrArg (Option.map _) (Munch.read_truncate hread hrest))

theorem parameter?_truncate (hc : c.isDigit = true)
    (h : next '$' (c :: cs ++ rest) = ⟨k, '$' :: c :: cs, rest⟩)
    (hrest : rest' = [] ∨ rest'.head? = rest.head?) :
    next '$' (c :: cs ++ rest') = ⟨k, '$' :: c :: cs, rest'⟩ := by
  have hparameter {text front behind : List Char}
      (hread : (Munch.run Char.isDigit).read text = some (front, behind)) :
      parameter? ('$' :: text) =
        some ⟨.identifier (String.ofList ('$' :: front)), '$' :: front, behind⟩ := by
    simp [parameter?, Recognizer.ofMunch, Munch.seq, Munch.char, Munch.one, hread]
  obtain ⟨⟨front, behind⟩, hread⟩ := Munch.exists_read_one_seq_many
    (fun d => d.isDigit || d == '_') hc (cs ++ rest)
  rw [List.cons_append, next_dollar (hparameter hread)] at h
  obtain ⟨rfl, hfront, rfl⟩ := Lexeme.mk.inj h
  obtain rfl := (List.cons.inj hfront).2
  exact next_dollar (hparameter (Munch.read_truncate hread hrest))

/-- At a backtick stands a quoted name, or else the backtick by itself. -/
theorem next_backtick (cs : List Char) :
    next '\x60' cs = (quotedName? ('\x60' :: cs)).getD
      (if opensQuotedName '\x60' cs then invalid '\x60' cs
        else ⟨.punctuator .backtick, ['\x60'], cs⟩) := by
  have hrun : symbolRun isOperatorChar ('\x60' :: cs) = ([], '\x60' :: cs) := by
    rw [symbolRun, if_neg (by simp [isOperatorChar])]
  have hcomment := comment?_eq_none (startsComment_of_ne (c := '\x60') (by decide) cs)
  simp only [next, Recognizer.firstOf, recognizers, List.findSome?_cons, hcomment,
    stringLiteral?_eq_none (c := '\x60') (by decide),
    numeral?_eq_none (c := '\x60') (by decide) (by decide),
    word?_eq_none (c := '\x60') (by decide), parameter?_eq_none (c := '\x60') (by decide)]
  rcases quotedName? ('\x60' :: cs) with _ | lexeme
  · cases hopens : opensQuotedName '\x60' cs <;>
      simp [symbol?, Recognizer.firstOf, arrow?, pointOperator?, delimiter?, operator?, hrun,
        hopens, Punctuator.ofDelimiter?, control?, Control.ofChar?]
  · rfl

/-- A quoted name is read in front of anything. -/
theorem quotedName?_append {n : String}
    (h : next '\x60' (cs ++ rest) = ⟨.quotedIdentifier n, '\x60' :: cs, rest⟩)
    (behind : List Char) :
    next '\x60' (cs ++ behind) = ⟨.quotedIdentifier n, '\x60' :: cs, behind⟩ := by
  rw [next_backtick] at h ⊢
  rcases hname : quotedName? ('\x60' :: (cs ++ rest)) with _ | lexeme
  · rw [hname, Option.getD_none] at h
    split at h <;> cases h
  · rw [hname, Option.getD_some] at h
    subst h
    rw [quotedName?] at hname
    split at hname
    · rename_i name rest' hread
      obtain ⟨hkind, hchars, rfl⟩ := Lexeme.mk.inj (Option.some.inj hname)
      obtain rfl : name ++ ['\x60'] = cs := (List.cons.inj hchars).2
      rw [List.append_assoc] at hread ⊢
      have hread' : Munch.word.read (name ++ (['\x60'] ++ behind)) =
          some (name, '\x60' :: behind) := Munch.read_truncate hread (.inr rfl)
      rw [quotedName?, hread', ← hkind]
      rfl
    · cases hname

/-- Two points in a row begin an operator. -/
theorem next_points (cs : List Char) : (next '.' ('.' :: cs)).kind ≠ .punctuator .period := by
  rw [next_of_sign (by decide) (by decide) (by decide)]
  simp [symbol?, Recognizer.firstOf, arrow?, pointOperator?]

/-- No recognizer but the one for comments gives a comment. -/
theorem startsComment_of_next {text : String} (h : (next c cs).kind = .comment text) :
    startsComment (c :: cs) = true := by
  cases isFound_next c cs with
  | comment hfound =>
    by_contra hstarts
    rw [comment?_eq_none (Bool.eq_false_iff.2 hstarts)] at hfound
    cases hfound
  | @word word _ hkind =>
    have hword := TokenKind.isTrivia_ofWord word
    rw [← hkind, h] at hword
    cases hword
  | _ =>
    rename_i hkind
    rw [hkind] at h
    cases h

end Lexeme

namespace TokenKind

variable {k : TokenKind} {ks ls : List TokenKind} {rest rest' : List Char}

/-! ## Kinds cut off -/

/-- Kinds that are told by looking one character ahead at most. -/
inductive IsPlain : TokenKind → Prop where
  | name {k : TokenKind} (hname : IsName k.spelling.toList) : IsPlain k
  | quotedName (n : String) : IsPlain (quotedIdentifier n)
  | delimiter {p : Punctuator} {c : Char} (hp : Punctuator.ofDelimiter? c = some p)
      (hc : c ≠ '\x60') : IsPlain (punctuator p)
  | control (c : Control) : IsPlain (control c)

/-- **A plain kind is read** where nothing is left behind it, or the same character. -/
theorem IsPlain.truncate (hk : k.IsPlain) (h : k.LegibleBefore rest)
    (hrest : rest' = [] ∨ rest'.head? = rest.head?) : k.LegibleBefore rest' := by
  cases hk with
  | name hname =>
    generalize hchars : k.spelling.toList = chars at hname
    cases hname with
    | word hc hcs =>
      rw [legibleBefore_iff hchars] at h ⊢
      exact Lexeme.word?_truncate hc h hrest
    | parameter hc hcs =>
      rw [legibleBefore_iff hchars] at h ⊢
      exact Lexeme.parameter?_truncate hc h hrest
  | quotedName n =>
    have hchars : (quotedIdentifier n).spelling.toList = '\x60' :: (n.toList ++ ['\x60']) := by
      simp [spelling]
    rw [legibleBefore_iff hchars] at h ⊢
    exact Lexeme.quotedName?_append h rest'
  | @delimiter p c hp hc =>
    refine legibleBefore_punctuator hp hc fun hpoint => ?_
    subst hpoint
    obtain rfl := Option.some.inj hp
    rcases hrest with rfl | hrest
    · rintro ⟨⟩
    rw [hrest]
    intro hhead
    obtain ⟨text, rfl⟩ := List.head?_eq_some_iff.1 hhead
    obtain ⟨c, cs, hchars, hnext⟩ := h
    obtain ⟨rfl, rfl⟩ := List.cons.inj (show ['.'] = c :: cs from hchars)
    exact Lexeme.next_points text (congrArg Lexeme.kind hnext)
  | control c => exact legibleBefore_control c rest'

/-- **A comment is read** where something is left behind it. -/
theorem legibleBefore_comment {text : String} {e : Char} {after : List Char}
    (h : (comment text).LegibleBefore (e :: after)) (behind : List Char) :
    (comment text).LegibleBefore (e :: behind) := by
  obtain ⟨c, cs, hchars, hnext⟩ := id h
  have hstarts := Lexeme.startsComment_of_next (congrArg Lexeme.kind hnext)
  exact legibleBefore_of_comment hchars hstarts h behind

/-- **Any kind is read** where a closing parenthesis is left behind it. -/
theorem legibleBefore_truncate {chars behind more : List Char}
    (h : k.LegibleBefore (chars ++ ')' :: (behind ++ more))) :
    k.LegibleBefore (chars ++ ')' :: behind) := by
  by_cases hk : k = .invalid (Char.toString '\"')
  · subst hk
    have hchars : (invalid (Char.toString '\"')).spelling.toList = ['\"'] := rfl
    rw [legibleBefore_iff hchars, List.nil_append, Lexeme.next_quote] at h ⊢
    rcases hstring : Lexeme.stringLiteral? ('\"' :: (chars ++ ')' :: behind)) with _ | lexeme
    · rfl
    · -- A string in the text that is left would be one in the whole text.
      obtain ⟨body, hbody, -⟩ := Option.map_eq_some_iff.1 hstring
      have hwhole := StringBody.read_raw_append hbody (body.rest ++ more)
      rw [← List.cons_append, ← List.append_assoc, StringBody.append_of_read hbody,
        List.append_assoc, List.cons_append] at hwhole
      rw [Lexeme.stringLiteral?, hwhole] at h
      cases h
  · exact legibleBefore_closing hk h behind

/-! ## Settled kinds -/

/-- Each kind is told by what is left of the text when it ends behind the last. -/
def Settled : List TokenKind → Prop
  | [] => True
  | k :: ks =>
    (k.IsPlain ∨ (k.isTrivia = true ∧ ks ≠ []) ∨ .punctuator .rightParen ∈ ks) ∧ Settled ks

/-- **Settled kinds are read from their own spelling alone.** -/
theorem legible_nil_of_settled (hks : Settled ks) (h : Legible ks rest) : Legible ks [] := by
  induction ks with
  | nil => exact trivial
  | cons k ks ih =>
    obtain ⟨hk, hks⟩ := hks
    refine ⟨?_, ih hks h.2⟩
    rw [List.append_nil]
    rcases hk with hplain | ⟨htrivia, hne⟩ | hclosing
    · refine hplain.truncate h.1 ?_
      rcases chars ks with _ | ⟨c, cs⟩
      · exact .inl rfl
      · exact .inr rfl
    · obtain ⟨l, ls, rfl⟩ := List.exists_cons_of_ne_nil hne
      obtain ⟨-, ⟨c, cs, hl, -⟩, -⟩ := id h
      have hchars : chars (l :: ls) = c :: (cs ++ chars ls) := by
        rw [chars_cons, hl, List.cons_append]
      cases k with
      | control c => exact legibleBefore_control c _
      | comment text =>
        have hk := h.1
        rw [hchars] at hk ⊢
        exact legibleBefore_comment hk _
      | _ => cases htrivia
    · obtain ⟨front, back, rfl⟩ := List.append_of_mem hclosing
      have hk := h.1
      rw [chars_append, List.append_assoc] at hk
      rw [chars_append]
      exact legibleBefore_truncate hk

/-- Settled kinds can be put behind one another. -/
theorem Settled.append (hks : Settled ks) (hls : Settled ls) : Settled (ks ++ ls) := by
  induction ks with
  | nil => exact hls
  | cons k ks ih =>
    refine ⟨hks.1.imp_right (Or.imp ?_ ?_), ih hks.2⟩
    · exact fun ⟨htrivia, hne⟩ => ⟨htrivia, List.append_ne_nil_of_left_ne_nil hne ls⟩
    · exact fun hclosing => List.mem_append_left ls hclosing

/-- The kinds at the end of settled ones are settled. -/
theorem Settled.of_append (h : Settled (ks ++ ls)) : Settled ls := by
  induction ks with
  | nil => exact h
  | cons k ks ih => exact ih h.2

/-- Trivia are settled in front of a plain kind. -/
theorem settled_trivia_append (hks : ∀ l ∈ ks, l.isTrivia = true) (hk : k.IsPlain) :
    Settled (ks ++ [k]) := by
  induction ks with
  | nil => exact ⟨.inl hk, trivial⟩
  | cons l ks ih =>
    rw [List.forall_mem_cons] at hks
    exact ⟨.inr (.inl ⟨hks.1, List.append_ne_nil_of_right_ne_nil ks (List.cons_ne_nil _ _)⟩),
      ih hks.2⟩

/-- All kinds are settled in front of a closing parenthesis. -/
theorem settled_append_closing (ks : List TokenKind) :
    Settled (ks ++ [.punctuator .rightParen]) := by
  induction ks with
  | nil => exact ⟨.inl (.delimiter (c := ')') rfl (by decide)), trivial⟩
  | cons k ks ih =>
    exact ⟨.inr (.inr (List.mem_append_right ks (List.mem_singleton_self _))), ih⟩

end TokenKind

end DeclFront
