import DeclFront.Proofs.Lexeme.Longest
import DeclFront.Proofs.Lexeme.Truncation

/-!
# Proofs/Lexeme/LineEnd — token kinds that are read at the end of a line

Put a line feed behind a token in place of what stands there, and the token is read as before
(`legibleBefore_lineFeed`).  No lexeme but a string or a block comment goes past a line feed, so in
front of one it is what it is at the end of the text (`endsLexemes_lineFeed`).  And there it is what
it was: the recognizer that found it finds it again (`Keeps`), and those that found nothing before
find nothing now, because what they find in the shorter text they would have found in the longer one
(`Misses`).

Three sorts of tokens are out of it.  A character that begins no token may begin one at the end of a
line, as a backtick does; and a block comment with a mark that nothing closes takes in the line end.
-/

namespace DeclFront

theorem endsLexemes_lineFeed : EndsLexemes '\n' := by
  constructor <;> decide

/-! ## Recognizers at the end of a text -/

namespace Recognizer

variable {recognizer : Recognizer} {recognizers others : List Recognizer} {munch : Munch}
  {L : Language Char}

/-- What the recognizer finds it finds again when the text ends behind it. -/
def Keeps (recognizer : Recognizer) : Prop :=
  ∀ k chars rest, recognizer (chars ++ rest) = some ⟨k, chars, rest⟩ →
    recognizer chars = some ⟨k, chars, []⟩

/-- Where the recognizer finds nothing it still finds nothing when the text ends earlier. -/
def Misses (recognizer : Recognizer) : Prop :=
  ∀ front rest, recognizer (front ++ rest) = none → recognizer front = none

/-- What is read whole is still read when the text ends with it. -/
theorem keeps_ofMunch (h : munch.ReadsLongest L) (kind : String → TokenKind) :
    (ofMunch munch kind).Keeps := by
  intro k chars rest hfound
  obtain ⟨⟨front, rest'⟩, hread, hlexeme⟩ := Option.map_eq_some_iff.1 hfound
  obtain ⟨rfl, rfl, rfl⟩ := Lexeme.mk.inj hlexeme
  rw [ofMunch, h.read_truncate hread, Option.map_some]

/-- Where nothing is read, nothing is in less text. -/
theorem misses_ofMunch (h : munch.ReadsLongest L) (kind : String → TokenKind) :
    (ofMunch munch kind).Misses := by
  intro front rest hfound
  rw [ofMunch, h.read_eq_none (Option.map_eq_none_iff.1 hfound), Option.map_none]

theorem misses_firstOf (h : ∀ recognizer ∈ recognizers, recognizer.Misses) :
    (firstOf recognizers).Misses := by
  intro front rest hfound
  refine List.findSome?_eq_none_iff.2 fun recognizer hmem => h recognizer hmem front rest ?_
  exact List.findSome?_eq_none_iff.1 hfound recognizer hmem

/-- **What is found first is found first again**, if those tried in vain miss it again. -/
theorem keeps_firstOf_append (h : ∀ recognizer ∈ recognizers, recognizer.Keeps ∧ recognizer.Misses)
    (hothers : (firstOf others).Keeps) : (firstOf (recognizers ++ others)).Keeps := by
  induction recognizers with
  | nil => exact hothers
  | cons recognizer recognizers ih =>
    rw [List.forall_mem_cons] at h
    have hrest := ih h.2
    intro k chars rest hfound
    rw [List.cons_append, firstOf, List.findSome?_cons] at hfound ⊢
    rcases hfirst : recognizer (chars ++ rest) with _ | lexeme
    · rw [hfirst] at hfound
      rw [h.1.2 chars rest hfirst]
      exact hrest k chars rest hfound
    · rw [hfirst] at hfound
      obtain rfl := Option.some.inj hfound
      rw [h.1.1 k chars rest hfirst]

/-- Alternatives keep what they find, when those tried before still miss. -/
theorem keeps_firstOf (h : ∀ recognizer ∈ recognizers, recognizer.Keeps ∧ recognizer.Misses) :
    (firstOf recognizers).Keeps := by
  have hall : (firstOf (recognizers ++ [])).Keeps := keeps_firstOf_append h nofun
  rwa [List.append_nil] at hall

end Recognizer

namespace Lexeme

open Recognizer

/-! ## Numbers and names -/

theorem numeral?_keeps_misses : numeral?.Keeps ∧ numeral?.Misses := by
  have hforms : ∀ recognizer ∈ NumberForm.inOrder.map fun form =>
      ofMunch form.munch fun spelling => .literal (.number form spelling),
      recognizer.Keeps ∧ recognizer.Misses := by
    intro recognizer hmem
    obtain ⟨form, -, rfl⟩ := List.mem_map.1 hmem
    have hread := Munch.readsLongest_numberForm form
    exact ⟨keeps_ofMunch hread _, misses_ofMunch hread _⟩
  exact ⟨keeps_firstOf hforms, misses_firstOf fun recognizer hmem => (hforms recognizer hmem).2⟩

theorem word?_keeps_misses : word?.Keeps ∧ word?.Misses :=
  ⟨keeps_ofMunch Munch.readsLongest_word _, misses_ofMunch Munch.readsLongest_word _⟩

theorem parameter?_keeps_misses : parameter?.Keeps ∧ parameter?.Misses :=
  ⟨keeps_ofMunch Munch.readsLongest_parameter _, misses_ofMunch Munch.readsLongest_parameter _⟩

theorem quotedName?_keeps_misses : quotedName?.Keeps ∧ quotedName?.Misses := by
  constructor
  · intro k chars rest hfound
    obtain ⟨name, rest', hread, htext, hlexeme⟩ := quotedName?_eq_some_iff.1 hfound
    obtain ⟨rfl, rfl, rfl⟩ := Lexeme.mk.inj hlexeme
    have hagain : Munch.word.read (name ++ ['\x60']) = some (name, ['\x60']) :=
      Munch.read_truncate hread (.inr rfl)
    exact quotedName?_eq_some_iff.2 ⟨name, [], hagain, rfl, rfl⟩
  · intro front rest hnone
    rcases hfound : quotedName? front with _ | lexeme
    · rfl
    · obtain ⟨name, rest', hread, rfl, -⟩ := quotedName?_eq_some_iff.1 hfound
      have hagain : Munch.word.read (name ++ '\x60' :: (rest' ++ rest)) =
          some (name, '\x60' :: (rest' ++ rest)) := Munch.read_truncate hread (.inr rfl)
      rw [quotedName?_eq_some_iff.2 ⟨name, rest' ++ rest, hagain, by simp, rfl⟩] at hnone
      cases hnone

/-! ## Symbols -/

variable {c : Char} {front rest : List Char}

/-- Where no comment starts none does when the text ends earlier. -/
theorem startsComment_truncate {text : List Char} (h : startsComment (text ++ rest) = false) :
    startsComment text = false := by
  unfold startsComment
  split
  · cases h
  · cases h
  · rfl

theorem symbolRun_truncate {accepts : Char → Bool}
    (h : symbolRun accepts (front ++ rest) = (front, rest)) :
    symbolRun accepts front = (front, []) := by
  induction front with
  | nil => rfl
  | cons c front ih =>
    rw [List.cons_append, symbolRun] at h
    split at h
    · rename_i hc
      rw [Bool.and_eq_true, Bool.not_eq_true'] at hc
      obtain ⟨hrun, hrest⟩ := Prod.mk.inj h
      have hinner := ih (Prod.ext (List.cons.inj hrun).2 hrest)
      have hstarts : startsComment (c :: front) = false := startsComment_truncate hc.2
      rw [symbolRun, hinner, if_pos (by simp [hc.1, hstarts])]
    · cases (Prod.mk.inj h).1

theorem arrow?_keeps_misses : arrow?.Keeps ∧ arrow?.Misses := by
  constructor
  · intro k chars rest hfound
    unfold arrow? at hfound
    split at hfound <;> cases hfound
    rfl
  · intro front rest hnone
    unfold arrow?
    split
    · cases hnone
    · rfl

theorem pointOperator?_keeps_misses : pointOperator?.Keeps ∧ pointOperator?.Misses := by
  constructor
  · intro k chars rest hfound
    unfold pointOperator? at hfound
    split at hfound
    · rename_i text htext
      obtain ⟨rfl, rfl, rfl⟩ := Lexeme.mk.inj (Option.some.inj hfound)
      have hrun := symbolRun_truncate (congrArg
        (symbolRun fun c => c == '.' || isOperatorChar c) (append_symbolRun _ text))
      simp only [pointOperator?, hrun]
    · cases hfound
  · intro front rest hnone
    unfold pointOperator?
    split
    · cases hnone
    · rfl

/-- A delimiter is kept; but where one is missed, a backtick may be one in less text. -/
theorem keeps_delimiter? : delimiter?.Keeps := by
  intro k chars rest hfound
  unfold delimiter? at hfound
  split at hfound
  · cases hfound
  · rename_i c cs htext
    split at hfound
    · cases hfound
    · obtain ⟨p, hp, hlexeme⟩ := Option.map_eq_some_iff.1 hfound
      obtain ⟨rfl, rfl, rfl⟩ := Lexeme.mk.inj hlexeme
      simp [delimiter?, opensQuotedName, hp]

/-- An operator is kept, for a comment behind it is gone with the rest of the text. -/
theorem keeps_operator? : operator?.Keeps := by
  intro k chars rest hfound
  unfold operator? at hfound
  split at hfound
  · cases hfound
  · rename_i run rest' hne hrun
    obtain ⟨rfl, rfl, rfl⟩ := Lexeme.mk.inj (Option.some.inj hfound)
    rw [operator?, symbolRun_truncate hrun]
    rcases run with _ | ⟨c, run⟩
    · exact absurd rfl hne
    · rfl

/-- No delimiter stands where an operator is found. -/
theorem delimiter?_of_operator? {lexeme : Lexeme} (h : operator? (c :: rest) = some lexeme)
    (more : List Char) : delimiter? (c :: more) = none := by
  have hc : isOperatorChar c = true := by
    by_contra hc
    rw [operator?, symbolRun, if_neg (by simp [hc])] at h
    cases h
  have hdelimiter : Punctuator.ofDelimiter? c = none := by
    unfold Punctuator.ofDelimiter?
    split <;> first | rfl | cases hc
  simp [delimiter?, hdelimiter]

/-- **Symbols are kept**, whichever way they are found. -/
theorem keeps_symbol? : symbol?.Keeps := by
  have hlast : (firstOf [delimiter?, operator?]).Keeps := by
    intro k chars rest hfound
    simp only [firstOf, List.findSome?_cons, List.findSome?_nil] at hfound ⊢
    rcases hdelimiter : delimiter? (chars ++ rest) with _ | lexeme
    · rw [hdelimiter] at hfound
      rcases hoperator : operator? (chars ++ rest) with _ | lexeme <;> rw [hoperator] at hfound <;>
        cases hfound
      obtain ⟨c, cs, rfl⟩ :=
        List.exists_cons_of_ne_nil (sound_operator? _ _ hoperator).chars_ne_nil
      rw [delimiter?_of_operator? hoperator, keeps_operator? k _ rest hoperator]
    · rw [hdelimiter] at hfound
      cases hfound
      rw [keeps_delimiter? k chars rest hdelimiter]
  change (firstOf ([arrow?, pointOperator?] ++ [delimiter?, operator?])).Keeps
  refine keeps_firstOf_append ?_ hlast
  exact List.forall_mem_cons.2
    ⟨arrow?_keeps_misses, List.forall_mem_singleton.2 pointOperator?_keeps_misses⟩

/-! ## The recognizers together -/

/-- The recognizers but those for strings, comments, blanks and line ends, in their order. -/
def lineRecognizers : List Recognizer := [numeral?, word?, quotedName?, parameter?, symbol?]

/-- All recognizers keep what they find on a line. -/
theorem keeps_lineRecognizers : (firstOf lineRecognizers).Keeps := by
  have hsymbol : (firstOf [symbol?]).Keeps := by
    have hfirst : firstOf [symbol?] = symbol? := by
      funext text
      rw [firstOf, List.findSome?_singleton]
    exact hfirst.symm ▸ keeps_symbol?
  change (firstOf ([numeral?, word?, quotedName?, parameter?] ++ [symbol?])).Keeps
  refine keeps_firstOf_append ?_ hsymbol
  simp only [List.forall_mem_cons, List.not_mem_nil, false_implies, implies_true, and_true]
  exact ⟨numeral?_keeps_misses, word?_keeps_misses, quotedName?_keeps_misses,
    parameter?_keeps_misses⟩

/-- Where no blank or line end stands they are all but the recognizers for strings and comments. -/
theorem firstOf_closingRecognizers (hcontrol : Control.ofChar? c = none) (cs : List Char) :
    firstOf closingRecognizers (c :: cs) = firstOf lineRecognizers (c :: cs) := by
  have hlast : firstOf [control?] (c :: cs) = none := by
    rw [firstOf, List.findSome?_singleton, control?, hcontrol, Option.map_none]
  change firstOf (lineRecognizers ++ [control?]) (c :: cs) = _
  rw [firstOf_append, hlast, Option.or_none]

end Lexeme

/-! ## Token kinds at the end of a line -/

namespace TokenKind

variable {k : TokenKind} {rest : List Char}

/-- **A kind that is read somewhere is read at the end of a line**, if it is not invalid and no
block comment that nothing ends. -/
theorem legibleBefore_lineFeed (h : k.LegibleBefore rest) (hvalid : ∀ text, k ≠ .invalid text)
    (hterminated : k.isUnterminated = false) (behind : List Char) :
    k.LegibleBefore ('\n' :: behind) := by
  obtain ⟨c, cs, hk, hnext⟩ := id h
  by_cases hquote : c = '\"'
  · subst hquote
    exact legibleBefore_of_quote hk (hvalid _) h _
  rcases hcontrol : Control.ofChar? c with _ | control
  · rcases hstarts : startsComment (c :: (cs ++ rest)) with _ | _
    · rw [Lexeme.next_of_other hquote hstarts, Lexeme.firstOf_closingRecognizers hcontrol] at hnext
      rcases hfound : Recognizer.firstOf Lexeme.lineRecognizers (c :: (cs ++ rest)) with _ | lexeme
      · rw [hfound] at hnext
        exact absurd (congrArg Lexeme.kind hnext).symm (hvalid _)
      · rw [hfound, Option.getD_some] at hnext
        subst hnext
        have hagain := Lexeme.keeps_lineRecognizers k (c :: cs) rest hfound
        have hstarts' : startsComment (c :: (cs ++ '\n' :: behind)) = false := by
          rw [Lexeme.startsComment_append endsLexemes_lineFeed]
          exact Lexeme.startsComment_truncate hstarts
        rw [legibleBefore_iff hk, Lexeme.next_of_other hquote hstarts',
          Lexeme.endsAt_closingRecognizers endsLexemes_lineFeed,
          Lexeme.firstOf_closingRecognizers hcontrol, hagain]
        rfl
    · have hcomment : Lexeme.comment? (c :: cs ++ rest) = some ⟨k, c :: cs, rest⟩ :=
        hnext ▸ Lexeme.comment?_eq_next hstarts
      have hagain := Lexeme.comment?_before (e := '\n') hcomment hterminated (.inl rfl) behind
      exact (legibleBefore_iff hk).2 (Lexeme.next_of_comment? hagain)
  · rw [Lexeme.next_control hcontrol] at hnext
    obtain ⟨rfl, -, -⟩ := Lexeme.mk.inj hnext
    exact legibleBefore_control control _

/-- A kind that is read in front of something is no block comment that nothing ends. -/
theorem isUnterminated_of_legibleBefore {e : Char} (h : k.LegibleBefore (e :: rest)) :
    k.isUnterminated = false := by
  obtain ⟨c, cs, -, hnext⟩ := h
  cases k with
  | comment text =>
    have hstarts := Lexeme.startsComment_of_next (congrArg Lexeme.kind hnext)
    have hcomment := Lexeme.comment?_eq_next hstarts
    rw [hnext] at hcomment
    exact Lexeme.isUnterminated_of_comment? hcomment (List.cons_ne_nil e rest)
  | _ => rfl

end TokenKind

end DeclFront
