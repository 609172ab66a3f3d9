import DeclFront.Proofs.Lexeme.Legible
import DeclFront.Proofs.Lexeme.Longest

/-!
# Proofs/Lexeme/Lookahead — no lexeme depends on what stands behind a closing parenthesis

A recognizer looks ahead of the lexeme that it finds.  For all but strings and comments a closing
parenthesis is as good as the end of the text (`Recognizer.EndsAt`), and so is every character that
stands in no name, number or operator (`EndsLexemes`).  A string and a comment may run past one, but
not beyond their own end.  So a kind that is read in front of a closing parenthesis is read there
whatever follows it (`legibleBefore_closing`); only a double quote that begins no string has looked
further, for the end of one.
-/

namespace DeclFront

/-! ## Recognizers that end at a character -/

/-- The character stands in no name, number or operator and opens none. -/
structure EndsLexemes (e : Char) : Prop where
  name : isIdentifierChar e = false
  numeral : Munch.isNumeralChar e = false
  operator : isOperatorChar e = false
  dollar : e ≠ '$'
  quote : e ≠ '\x60'

theorem endsLexemes_closing : EndsLexemes ')' := by
  constructor <;> decide

/-- What ends lexemes is no character of operators. -/
theorem EndsLexemes.ne {e d : Char} (he : EndsLexemes e) (hd : isOperatorChar d = true) :
    e ≠ d := by
  rintro rfl
  rw [he.operator] at hd
  cases hd

/-- The lexeme with more text behind it. -/
def Lexeme.before (lexeme : Lexeme) (behind : List Char) : Lexeme :=
  ⟨lexeme.kind, lexeme.chars, lexeme.rest ++ behind⟩

variable {e : Char}

namespace Recognizer

/-- In front of the character the recognizer finds what it finds at the end of the text. -/
def EndsAt (recognizer : Recognizer) (e : Char) : Prop :=
  ∀ c front behind, recognizer (c :: (front ++ e :: behind)) =
    (recognizer (c :: front)).map (·.before (e :: behind))

/-- **A recognizer ends at a character that its words are not made of.** -/
theorem endsAt_ofMunch {munch : Munch} {kind : String → TokenKind} {L : Language Char}
    {accepts : Char → Bool} (h : munch.ReadsLongest L) (hL : Munch.MadeOf L accepts)
    (he : accepts e = false) : (ofMunch munch kind).EndsAt e := by
  intro c front behind
  rw [ofMunch, ← List.cons_append, h.read_append hL he, Option.map_map, ofMunch, Option.map_map]
  rfl

theorem endsAt_firstOf {recognizers : List Recognizer}
    (h : ∀ recognizer ∈ recognizers, recognizer.EndsAt e) : (firstOf recognizers).EndsAt e := by
  intro c front behind
  induction recognizers with
  | nil => rfl
  | cons recognizer others ih =>
    rw [List.forall_mem_cons] at h
    have hothers := ih h.2
    rw [firstOf, firstOf] at hothers ⊢
    rw [List.findSome?_cons, h.1 c front behind, List.findSome?_cons]
    rcases recognizer (c :: front) with _ | lexeme
    · exact hothers
    · rfl

end Recognizer

namespace Lexeme

open Recognizer

section EndsAt

variable (he : EndsLexemes e)
include he

theorem endsAt_numeral? : EndsAt numeral? e :=
  endsAt_firstOf fun recognizer hmem => by
    obtain ⟨form, -, rfl⟩ := List.mem_map.1 hmem
    exact endsAt_ofMunch (Munch.readsLongest_numberForm form) (Munch.madeOf_texts form) he.numeral

theorem endsAt_word? : EndsAt word? e :=
  endsAt_ofMunch Munch.readsLongest_word Munch.madeOf_words he.name

theorem endsAt_quotedName? : EndsAt quotedName? e := by
  intro c front behind
  by_cases hc : c = '\x60'
  · subst hc
    simp only [quotedName?,
      Munch.readsLongest_word.read_append Munch.madeOf_words he.name front behind]
    rcases Munch.word.read front with _ | ⟨name, _ | ⟨d, rest⟩⟩
    · rfl
    · simp [he.quote]
    · by_cases hd : d = '\x60'
      · subst hd
        rfl
      · simp [hd]
  · simp [quotedName?, hc]

theorem endsAt_parameter? : EndsAt parameter? e :=
  endsAt_ofMunch Munch.readsLongest_parameter Munch.madeOf_parameters
    (by simp [he.dollar, he.numeral])

/-- Whether a comment starts is decided in front of what ends lexemes. -/
theorem startsComment_append (c : Char) (front behind : List Char) :
    startsComment (c :: (front ++ e :: behind)) = startsComment (c :: front) := by
  rcases front with _ | ⟨d, front⟩
  · simp [startsComment, he.ne (d := '/') (by decide), he.ne (d := '*') (by decide)]
  · by_cases hc : c = '/'
    · subst hc
      by_cases hd : d = '/'
      · subst hd
        rfl
      · by_cases hd' : d = '*'
        · subst hd'
          rfl
        · simp [startsComment, hd, hd']
    · simp [startsComment, hc]

/-- A run of symbols is decided in front of what ends lexemes. -/
theorem symbolRun_append (accepts : Char → Bool) (haccepts : accepts e = false)
    (front behind : List Char) :
    symbolRun accepts (front ++ e :: behind) =
      ((symbolRun accepts front).1, (symbolRun accepts front).2 ++ e :: behind) := by
  induction front with
  | nil => simp [symbolRun, haccepts]
  | cons c front ih =>
    rw [List.cons_append, symbolRun, startsComment_append he, ih, symbolRun]
    split <;> rfl

/-- Symbols end there, although they look further for comments. -/
theorem endsAt_symbol? : EndsAt symbol? e := by
  refine endsAt_firstOf ?_
  simp only [List.forall_mem_cons, List.not_mem_nil, false_implies, implies_true, and_true]
  have hpoint : e ≠ '.' := by
    rintro rfl
    exact absurd he.numeral (by decide)
  have hrun := symbolRun_append he (fun c => c == '.' || isOperatorChar c)
    (by simp [hpoint, he.operator])
  refine ⟨?_, ?_, ?_, ?_⟩
  · rintro c (_ | ⟨d, front⟩) behind
    · simp [arrow?, he.ne (d := '>') (by decide)]
    · by_cases hc : c = '-'
      · subst hc
        by_cases hd : d = '>'
        · subst hd
          rfl
        · simp [arrow?, hd]
      · simp [arrow?, hc]
  · rintro c (_ | ⟨d, front⟩) behind
    · simp [pointOperator?, hpoint]
    · by_cases hc : c = '.'
      · subst hc
        by_cases hd : d = '.'
        · subst hd
          simp only [pointOperator?, List.cons_append, hrun]
          rfl
        · simp [pointOperator?, hd]
      · simp [pointOperator?, hc]
  · intro c front behind
    have hhead : isIdentifierHead e = false := by
      refine Bool.eq_false_iff.2 fun hhead => ?_
      have hname := isIdentifierChar_of_isIdentifierHead hhead
      rw [he.name] at hname
      cases hname
    have hopens : opensQuotedName c (front ++ e :: behind) = opensQuotedName c front := by
      rcases front with _ | ⟨d, front⟩
      · simp [opensQuotedName, hhead]
      · rfl
    rw [delimiter?, hopens, delimiter?]
    split
    · rfl
    · rw [Option.map_map]
      rfl
  · intro c front behind
    rw [operator?, ← List.cons_append, symbolRun_append he _ he.operator, operator?]
    rcases symbolRun isOperatorChar (c :: front) with ⟨_ | ⟨d, run⟩, rest⟩ <;> rfl

end EndsAt

theorem endsAt_control? : EndsAt control? e := by
  intro c front behind
  rw [control?, control?, Option.map_map]
  rfl

end Lexeme

/-! ## Strings and comments -/

/-- A string literal ends where it ends, whatever follows. -/
theorem StringBody.read_raw_append {mode : StringMode} {text : List Char} {body : StringBody}
    (h : StringBody.read mode text = some body) (behind : List Char) :
    StringBody.read mode (body.raw ++ '\"' :: behind) =
      some ⟨body.raw, body.interpolated, behind⟩ := by
  induction text generalizing mode body with
  | nil => simp [StringBody.read] at h
  | cons c cs ih =>
    rw [StringBody.read] at h
    split at h
    · rename_i hc
      obtain rfl := Option.some.inj h
      have hquote : c = '\"' := by
        rw [StringMode.closes, Bool.and_eq_true, beq_iff_eq, beq_iff_eq] at hc
        exact hc.2
      rw [List.nil_append, StringBody.read, ← hquote, if_pos hc]
    · rename_i hc
      split at h
      · cases h
      · rename_i next hnext
        obtain ⟨inner, hinner, rfl⟩ := Option.map_eq_some_iff.1 h
        rw [List.cons_append, StringBody.read, if_neg hc, hnext]
        simp only [ih hinner]
        rfl

/-- How many opening marks are left without a closing one in the rest of a block comment, when there
were so many before it. -/
def marksOpen : (depth : Nat) → List Char → Nat
  | depth, '/' :: '*' :: cs => marksOpen (depth + 1) cs
  | depth, '*' :: '/' :: cs => marksOpen (depth - 1) cs
  | depth, _ :: cs => marksOpen depth cs
  | depth, [] => depth

/-- **A block comment whose marks are all closed ends where it ends**, whatever follows; one with a
mark that nothing closes takes in all of the text. -/
theorem blockComment_closed_or_open {depth : Nat} (hdepth : depth ≠ 0) (text : List Char) :
    (marksOpen depth (blockComment depth text).1 = 0 ∧
      ∀ behind, blockComment depth ((blockComment depth text).1 ++ behind) =
        ((blockComment depth text).1, behind)) ∨
    (marksOpen depth (blockComment depth text).1 ≠ 0 ∧ (blockComment depth text).2 = []) := by
  fun_induction blockComment depth text with
  | case1 depth cs comment rest hcomment ih =>
    rw [hcomment] at ih
    refine (ih depth.succ_ne_zero).imp_left fun h => ⟨h.1, fun behind => ?_⟩
    rw [List.cons_append, List.cons_append, blockComment, h.2]
  | case2 depth cs hlast =>
    refine .inl ⟨hlast, fun behind => ?_⟩
    rw [List.cons_append, List.cons_append, List.nil_append, blockComment, if_pos hlast]
  | case3 depth cs hlast comment rest hcomment ih =>
    rw [hcomment] at ih
    refine (ih hlast).imp_left fun h => ⟨h.1, fun behind => ?_⟩
    rw [List.cons_append, List.cons_append, blockComment, if_neg hlast, h.2]
  | case4 depth c cs hopen hclose comment rest hcomment ih =>
    rw [hcomment] at ih
    have htext := append_blockComment depth cs
    rw [hcomment] at htext
    have hopen' (es : List Char) (hc : c = '/') : comment ≠ '*' :: es := fun hes =>
      hopen (es ++ rest) hc (by rw [← htext, hes, List.cons_append])
    have hclose' (es : List Char) (hc : c = '*') : comment ≠ '/' :: es := fun hes =>
      hclose (es ++ rest) hc (by rw [← htext, hes, List.cons_append])
    rw [marksOpen.eq_3 depth c comment hopen' hclose']
    refine (ih hdepth).imp_left fun h => ⟨h.1, fun behind => ?_⟩
    -- A mark is still to close behind `c`, so the comment goes on there and no new mark arises.
    rcases comment with _ | ⟨d, comment⟩
    · exact absurd h.1 hdepth
    · rw [List.cons_append, List.cons_append, blockComment.eq_3, ← List.cons_append, h.2]
      · exact fun es hc hes => hopen' comment hc (by rw [(List.cons.inj hes).1])
      · exact fun es hc hes => hclose' comment hc (by rw [(List.cons.inj hes).1])
  | case5 => exact .inr ⟨hdepth, rfl⟩

/-- The kind is a block comment in which some opening mark has no closing one. -/
def TokenKind.isUnterminated : TokenKind → Bool
  | comment text =>
    match text.toList with
    | '/' :: '*' :: cs => marksOpen 1 cs != 0
    | _ => false
  | _ => false

namespace Lexeme

open Recognizer

/-- A comment that something follows is closed. -/
theorem isUnterminated_of_comment? {text : List Char} {lexeme : Lexeme}
    (h : comment? text = some lexeme) (hrest : lexeme.rest ≠ []) :
    lexeme.kind.isUnterminated = false := by
  unfold comment? at h
  split at h
  · obtain rfl := Option.some.inj h
    simp [TokenKind.isUnterminated]
  · rename_i text
    obtain rfl := Option.some.inj h
    rcases blockComment_closed_or_open Nat.one_ne_zero text with ⟨hclosed, -⟩ | ⟨-, hnil⟩
    · simp [TokenKind.isUnterminated, hclosed]
    · exact absurd hnil hrest
  · cases h

/-- **A closed comment is found again** in front of a line end, or of the character that stood
behind it. -/
theorem comment?_before {k : TokenKind} {chars rest : List Char} {e : Char}
    (h : comment? (chars ++ rest) = some ⟨k, chars, rest⟩) (hk : k.isUnterminated = false)
    (he : isLineEnd e = true ∨ rest.head? = some e) (behind : List Char) :
    comment? (chars ++ e :: behind) = some ⟨k, chars, e :: behind⟩ := by
  unfold comment? at h
  split at h
  · rename_i text _
    obtain ⟨rfl, rfl, hrest⟩ := Lexeme.mk.inj (Option.some.inj h)
    have hpos : ∀ c ∈ text.takeWhile (!isLineEnd ·), (!isLineEnd c) = true :=
      List.all_eq_true.1 List.all_takeWhile
    -- What ended a line comment is a line end.
    have hend : isLineEnd e = true := by
      rcases he with he | he
      · exact he
      · have hhead := List.head?_dropWhile_not (!isLineEnd ·) text
        rw [hrest, he] at hhead
        simpa using hhead
    rw [List.cons_append, List.cons_append, comment?, List.takeWhile_append_of_pos hpos,
      List.dropWhile_append_of_pos hpos, List.takeWhile_cons_of_neg (by simp [hend]),
      List.dropWhile_cons_of_neg (by simp [hend]), List.append_nil]
  · rename_i text _
    obtain ⟨rfl, rfl, -⟩ := Lexeme.mk.inj (Option.some.inj h)
    simp only [TokenKind.isUnterminated, String.toList_ofList, bne_eq_false_iff_eq] at hk
    rcases blockComment_closed_or_open Nat.one_ne_zero text with ⟨-, happend⟩ | ⟨hmarks, -⟩
    · rw [List.cons_append, List.cons_append, comment?, happend]
    · exact absurd hk hmarks
  · cases h

/-- The recognizers but those for strings and comments, in their order. -/
def closingRecognizers : List Recognizer :=
  [numeral?, word?, quotedName?, parameter?, symbol?, control?]

/-- All recognizers end there but those for strings and comments. -/
theorem endsAt_closingRecognizers (he : EndsLexemes e) :
    (firstOf closingRecognizers).EndsAt e := by
  refine endsAt_firstOf ?_
  simp only [closingRecognizers, List.forall_mem_cons, List.not_mem_nil, false_implies,
    implies_true, and_true]
  exact ⟨endsAt_numeral? he, endsAt_word? he, endsAt_quotedName? he, endsAt_parameter? he,
    endsAt_symbol? he, endsAt_control?⟩

/-- Without a string and without a comment the other recognizers decide. -/
theorem next_of_other {c : Char} {cs : List Char} (hc : c ≠ '\"')
    (hcs : startsComment (c :: cs) = false) :
    next c cs = (firstOf closingRecognizers (c :: cs)).getD (invalid c cs) := by
  have hstring := stringLiteral?_eq_none hc cs
  have hcomment := comment?_eq_none hcs
  simp only [next, firstOf, recognizers, closingRecognizers, List.findSome?_cons, hstring, hcomment]

end Lexeme

/-! ## No lexeme looks beyond -/

namespace TokenKind

variable {k : TokenKind} {chars after : List Char}

/-- A kind is legible when its characters are read back as it. -/
theorem legibleBefore_iff {c : Char} {cs : List Char} (hk : k.spelling.toList = c :: cs) :
    k.LegibleBefore after ↔ Lexeme.next c (cs ++ after) = ⟨k, c :: cs, after⟩ := by
  constructor
  · rintro ⟨d, ds, hd, hnext⟩
    obtain ⟨rfl, rfl⟩ := List.cons.inj (hk.symm.trans hd)
    exact hnext
  · exact fun hnext => ⟨c, cs, hk, hnext⟩

/-- A string is read in front of anything. -/
theorem legibleBefore_of_quote {cs : List Char} (hk : k.spelling.toList = '\"' :: cs)
    (hvalid : k ≠ .invalid (Char.toString '\"')) (h : k.LegibleBefore after)
    (behind : List Char) : k.LegibleBefore behind := by
  rw [legibleBefore_iff hk, Lexeme.next_quote] at h ⊢
  rcases hstring : Lexeme.stringLiteral? ('\"' :: (cs ++ after)) with _ | lexeme
  · rw [hstring] at h
    exact absurd (congrArg Lexeme.kind h).symm hvalid
  · rw [hstring, Option.getD_some] at h
    subst h
    obtain ⟨body, hbody, hlexeme⟩ := Option.map_eq_some_iff.1 hstring
    obtain ⟨hkind, hchars, -⟩ := Lexeme.mk.inj hlexeme
    obtain rfl : body.raw ++ ['\"'] = cs := (List.cons.inj hchars).2
    rw [Lexeme.stringLiteral?, List.append_assoc, List.singleton_append,
      StringBody.read_raw_append hbody behind, Option.map_some, ← hkind]
    rfl

/-- A comment with something behind it is read in front of all that begins with the same
character. -/
theorem legibleBefore_of_comment {c e : Char} {cs : List Char} (hk : k.spelling.toList = c :: cs)
    (hstarts : startsComment (c :: (cs ++ e :: after)) = true) (h : k.LegibleBefore (e :: after))
    (behind : List Char) : k.LegibleBefore (e :: behind) := by
  rw [legibleBefore_iff hk] at h ⊢
  have hcomment : Lexeme.comment? (c :: cs ++ e :: after) = some ⟨k, c :: cs, e :: after⟩ :=
    h ▸ Lexeme.comment?_eq_next hstarts
  have hterminated := Lexeme.isUnterminated_of_comment? hcomment (List.cons_ne_nil e after)
  exact Lexeme.next_of_comment? (Lexeme.comment?_before hcomment hterminated (.inr rfl) behind)

/-- **A kind that is read in front of a closing parenthesis is read there whatever follows it**, but
for a double quote that begins no string. -/
theorem legibleBefore_closing (hvalid : k ≠ .invalid (Char.toString '\"'))
    (h : k.LegibleBefore (chars ++ ')' :: after)) (behind : List Char) :
    k.LegibleBefore (chars ++ ')' :: behind) := by
  obtain ⟨c, cs, hk, hnext⟩ := id h
  by_cases hquote : c = '\"'
  · subst hquote
    exact legibleBefore_of_quote hk hvalid h _
  rw [← List.append_assoc] at hnext
  rcases hstarts : startsComment (c :: (cs ++ chars)) with _ | _
  · rw [legibleBefore_iff hk, ← List.append_assoc]
    rw [Lexeme.next_of_other hquote (by rwa [Lexeme.startsComment_append endsLexemes_closing]),
      Lexeme.endsAt_closingRecognizers endsLexemes_closing] at hnext ⊢
    rcases hfirst : Recognizer.firstOf Lexeme.closingRecognizers (c :: (cs ++ chars))
      with _ | lexeme
    · rw [hfirst] at hnext
      obtain ⟨hkind, hchars, -⟩ := Lexeme.mk.inj hnext
      obtain rfl := (List.cons.inj hchars).2
      rw [Option.map_none, Option.getD_none, Lexeme.invalid, hkind]
      rfl
    · rw [hfirst] at hnext
      obtain ⟨hkind, hchars, hrest⟩ := Lexeme.mk.inj hnext
      rw [Option.map_some, Option.getD_some, Lexeme.before, hkind, hchars,
        List.append_cancel_right hrest]
  · have hstarts' : startsComment (c :: (cs ++ (chars ++ ')' :: after))) = true := by
      rwa [← List.append_assoc, Lexeme.startsComment_append endsLexemes_closing]
    rcases chars with _ | ⟨e, chars⟩
    · exact legibleBefore_of_comment hk hstarts' h behind
    · exact legibleBefore_of_comment hk hstarts' h _

/-- **What is legible up to a closing parenthesis is so whatever follows it.** -/
theorem legible_closing {ks : List TokenKind} (hvalid : ∀ k ∈ ks, ∀ text, k ≠ .invalid text)
    (h : Legible (ks ++ [.punctuator .rightParen]) after) (behind : List Char) :
    Legible (ks ++ [.punctuator .rightParen]) behind := by
  induction ks with
  | nil => exact ⟨legibleBefore_punctuator (c := ')') rfl (by decide) nofun, trivial⟩
  | cons k ks ih =>
    rw [List.forall_mem_cons] at hvalid
    have hchars (text : List Char) :
        TokenKind.chars (ks ++ [.punctuator .rightParen]) ++ text =
          TokenKind.chars ks ++ ')' :: text := by
      rw [chars_append, List.append_assoc]
      rfl
    obtain ⟨hk, hks⟩ := h
    refine ⟨?_, ih hvalid.2 hks⟩
    rw [List.append_eq, hchars] at hk ⊢
    exact legibleBefore_closing (hvalid.1 _) hk behind

end TokenKind

end DeclFront
