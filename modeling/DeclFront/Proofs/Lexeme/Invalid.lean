import DeclFront.Proofs.Lexeme.Numeral
import DeclFront.Proofs.Lexeme.Segments
import DeclFront.Proofs.Lexeme.Word

/-!
# Proofs/Lexeme/Invalid — where no token begins

A character is invalid when every recognizer refuses it, and by what each of them refuses there are
four ways to be so (`BeginsNoToken`): a double quote that opens no literal, a backtick before a word
that nothing closes, a dollar sign without digits, and a character that nothing begins with.
Numbers, comments, words and symbols are found wherever they can begin (`BeginsToken`).
-/

namespace DeclFront

/-- No token begins with the character in front of the rest of the text. -/
inductive BeginsNoToken : Char → List Char → Prop where
  | quote {cs : List Char}
      (hliteral : ¬ ∃ segments rest, '\"' :: cs = StringSegment.literal segments ++ rest) :
      BeginsNoToken '\"' cs
  | backtick {d : Char} {ds : List Char} (hd : isIdentifierHead d = true)
      (hopen : ((d :: ds).dropWhile isIdentifierChar).head? ≠ some '\x60') :
      BeginsNoToken '\x60' (d :: ds)
  | dollar {cs : List Char} (hdigit : ∀ d ∈ cs.head?, d.isDigit = false) : BeginsNoToken '$' cs
  | other {c : Char} {cs : List Char} (hhead : isIdentifierHead c = false)
      (hdigit : c.isDigit = false) (hoperator : isOperatorChar c = false)
      (hdelimiter : Punctuator.ofDelimiter? c = none) (hquote : c ≠ '\"') (hdollar : c ≠ '$')
      (hcontrol : Control.ofChar? c = none) : BeginsNoToken c cs

/-- The character tells what begins with it: a number, a comment, a word or a symbol. -/
inductive BeginsToken (c : Char) (cs : List Char) : Prop where
  | number (hc : c.isDigit = true ∨ c = '-' ∧ ∃ d ∈ cs.head?, d.isDigit = true)
  | comment (hstarts : startsComment (c :: cs) = true)
  | word (hhead : isIdentifierHead c = true)
  | symbol (hc : isOperatorChar c = true ∨ (Punctuator.ofDelimiter? c).isSome = true)
      (hopens : opensQuotedName c cs = false)

namespace Lexeme

variable {c : Char} {cs : List Char}

/-! ## What each recognizer refuses -/

/-- A double quote is invalid just where no literal begins with it. -/
theorem stringLiteral?_eq_none_iff :
    stringLiteral? ('\"' :: cs) = none ↔
      ¬ ∃ segments rest, '\"' :: cs = StringSegment.literal segments ++ rest := by
  rw [← isSome_stringLiteral?_iff, Bool.not_eq_true, Option.isSome_eq_false_iff,
    Option.isNone_iff_eq_none]

/-- Words are missed only at what heads no identifier. -/
theorem word?_eq_none_iff : word? (c :: cs) = none ↔ isIdentifierHead c = false := by
  refine ⟨fun h => ?_, fun h => word?_eq_none h cs⟩
  cases hhead : isIdentifierHead c with
  | true =>
    rw [word?, Recognizer.ofMunch, Munch.read_word hhead] at h
    cases h
  | false => rfl

/-- A quoted name is refused where its word is not closed. -/
theorem quotedName?_eq_none_iff {d : Char} {ds : List Char} (hd : isIdentifierHead d = true) :
    quotedName? ('\x60' :: d :: ds) = none ↔
      ((d :: ds).dropWhile isIdentifierChar).head? ≠ some '\x60' := by
  simp only [quotedName?, Munch.read_word hd]
  split
  · rename_i hread
    obtain ⟨-, hrest⟩ := Prod.mk.inj (Option.some.inj hread)
    simp [hrest]
  · rename_i hopen
    refine iff_of_true rfl fun hclosed => ?_
    obtain ⟨rest, hrest⟩ := List.head?_eq_some_iff.1 hclosed
    exact hopen _ rest (by rw [hrest])

/-- A dollar sign is invalid just where no digit follows it. -/
theorem parameter?_eq_none_iff :
    parameter? ('$' :: cs) = none ↔ ∀ d ∈ cs.head?, d.isDigit = false := by
  rcases cs with _ | ⟨d, ds⟩
  · simp [parameter?, Recognizer.ofMunch, Munch.seq, Munch.char, Munch.one, Munch.run]
  · cases hd : d.isDigit <;>
      simp [parameter?, Recognizer.ofMunch, Munch.seq, Munch.char, Munch.one, Munch.run, Munch.many,
        hd]

/-- A backtick opens a quoted name just where the head of an identifier follows it. -/
theorem opensQuotedName_iff :
    opensQuotedName c cs = true ↔
      c = '\x60' ∧ ∃ d ds, cs = d :: ds ∧ isIdentifierHead d = true := by
  rcases cs with _ | ⟨d, ds⟩ <;> simp [opensQuotedName]

/-! ## What all of them refuse -/

theorem FindsNothing.next_eq (h : FindsNothing c cs) : next c cs = invalid c cs := by
  obtain ⟨recognizer, hmem, hfound⟩ | ⟨-, hinvalid⟩ := exists_found_or_eq_invalid c cs
  · rw [h recognizer hmem] at hfound
    cases hfound
  · exact hinvalid

/-- **What is invalid was found nowhere.** -/
theorem findsNothing_of_next {s : String} (h : (next c cs).kind = .invalid s) :
    FindsNothing c cs := by
  cases isFound_next c cs with
  | nowhere hnone => exact hnone
  | word _ hkind => cases isKindOfWord_iff.2 (h.symm.trans hkind)
  | _ =>
    rename_i hkind
    rw [hkind] at h
    cases h

/-- **Numbers, comments, words and symbols are found** wherever they can begin. -/
theorem FindsNothing.not_beginsToken (h : FindsNothing c cs) : ¬ BeginsToken c cs := by
  obtain ⟨-, hnumeral, hword, -, -, hcomment, hsymbol, -⟩ := findsNothing_iff.1 h
  rw [comment?_eq_none_iff] at hcomment
  rintro (hc | hstarts | hhead | ⟨hc, hopens⟩)
  · obtain ⟨lexeme, hlexeme⟩ := exists_numeral? hc
    rw [hnumeral] at hlexeme
    cases hlexeme
  · rw [hcomment] at hstarts
    cases hstarts
  · rw [word?_eq_none_iff.1 hword] at hhead
    cases hhead
  · obtain ⟨hoperator, hdelimiter⟩ := symbol?_eq_none_iff.1 hsymbol
    rcases hc with hc | hc
    · rw [hcomment] at hoperator
      cases hoperator hc
    · rw [hdelimiter.resolve_right (by rw [hopens]; decide)] at hc
      cases hc

/-- Where nothing is found, no token begins. -/
theorem FindsNothing.beginsNoToken (h : FindsNothing c cs) : BeginsNoToken c cs := by
  obtain ⟨hstring, -, -, hquoted, hparameter, -, -, hcontrol⟩ := findsNothing_iff.1 h
  have hbegins := h.not_beginsToken
  by_cases hquote : c = '\"'
  · subst hquote
    exact .quote (stringLiteral?_eq_none_iff.1 hstring)
  by_cases hdollar : c = '$'
  · subst hdollar
    exact .dollar (parameter?_eq_none_iff.1 hparameter)
  cases hopens : opensQuotedName c cs with
  | true =>
    obtain ⟨rfl, d, ds, rfl, hhead⟩ := opensQuotedName_iff.1 hopens
    exact .backtick hhead ((quotedName?_eq_none_iff hhead).1 hquoted)
  | false =>
    refine .other ?_ ?_ ?_ ?_ hquote hdollar (Option.map_eq_none_iff.1 hcontrol)
    · exact Bool.eq_false_iff.2 fun hhead => hbegins (.word hhead)
    · exact Bool.eq_false_iff.2 fun hdigit => hbegins (.number (.inl hdigit))
    · exact Bool.eq_false_iff.2 fun hoperator => hbegins (.symbol (.inl hoperator) hopens)
    · exact Option.not_isSome_iff_eq_none.1 fun hdelimiter =>
        hbegins (.symbol (.inr hdelimiter) hopens)

/-- Where no token begins, nothing is found. -/
theorem FindsNothing.of_beginsNoToken (h : BeginsNoToken c cs) : FindsNothing c cs := by
  refine findsNothing_iff.2 ?_
  cases h with
  | quote hliteral =>
    exact ⟨stringLiteral?_eq_none_iff.2 hliteral, numeral?_eq_none (by decide) (by decide) cs,
      word?_eq_none (by decide) cs, quotedName?_eq_none (by decide) cs,
      parameter?_eq_none (by decide) cs, comment?_eq_none (startsComment_of_ne (by decide) cs),
      symbol?_eq_none (by decide) rfl cs, rfl⟩
  | @backtick d ds hd hopen =>
    have hopens := opensQuotedName_iff.2 ⟨rfl, d, ds, rfl, hd⟩
    exact ⟨stringLiteral?_eq_none (by decide) _, numeral?_eq_none (by decide) (by decide) _,
      word?_eq_none (by decide) _, (quotedName?_eq_none_iff hd).2 hopen,
      parameter?_eq_none (by decide) _, comment?_eq_none (startsComment_of_ne (by decide) _),
      symbol?_eq_none_iff.2 ⟨fun hoperator => absurd hoperator (by decide), .inr hopens⟩, rfl⟩
  | dollar hdigit =>
    exact ⟨stringLiteral?_eq_none (by decide) cs, numeral?_eq_none (by decide) (by decide) cs,
      word?_eq_none (by decide) cs, quotedName?_eq_none (by decide) cs,
      parameter?_eq_none_iff.2 hdigit, comment?_eq_none (startsComment_of_ne (by decide) cs),
      symbol?_eq_none (by decide) rfl cs, rfl⟩
  | other hhead hdigit hoperator hdelimiter hquote hdollar hcontrol =>
    have hminus : c ≠ '-' := by
      rintro rfl
      cases hoperator
    have hslash : c ≠ '/' := by
      rintro rfl
      cases hoperator
    have hbacktick : c ≠ '\x60' := by
      rintro rfl
      cases hdelimiter
    exact ⟨stringLiteral?_eq_none hquote cs, numeral?_eq_none hminus hdigit cs,
      word?_eq_none hhead cs, quotedName?_eq_none hbacktick cs, parameter?_eq_none hdollar cs,
      comment?_eq_none (startsComment_of_ne hslash cs), symbol?_eq_none hoperator hdelimiter cs,
      Option.map_eq_none_iff.2 hcontrol⟩

end Lexeme

namespace TokenStream

variable {path text : String} {front back : List Token} {t : Token} {c : Char} {cs : List Char}

/-- **Invalid is what begins no token, one character at a time**, at any place of any text; so no
number, comment, word or symbol that can begin somewhere is ever invalid. -/
theorem isInvalid_iff_of_ofText (h : (ofText path text).tokens = front ++ t :: back)
    (hcs : Token.chars (t :: back) = c :: cs) :
    (∀ s, t.kind = .invalid s → s.toList = [c] ∧ Token.chars back = cs) ∧
      ((∃ s, t.kind = .invalid s) ↔ BeginsNoToken c cs) ∧
      (BeginsToken c cs → ∀ s, t.kind ≠ .invalid s) := by
  have hnext := Token.next_of_ofText h hcs
  have hnothing {s : String} (hs : t.kind = .invalid s) : Lexeme.FindsNothing c cs :=
    Lexeme.findsNothing_of_next (by rw [hnext]; exact hs)
  refine ⟨fun s hs => ?_, ⟨?_, fun hbegins => ?_⟩, fun hbegins s hs => ?_⟩
  · rw [(hnothing hs).next_eq] at hnext
    obtain ⟨hkind, -, hback⟩ := Lexeme.mk.inj hnext
    obtain rfl := TokenKind.invalid.inj (hkind.trans hs)
    exact ⟨by simp, hback.symm⟩
  · rintro ⟨s, hs⟩
    exact (hnothing hs).beginsNoToken
  · rw [(Lexeme.FindsNothing.of_beginsNoToken hbegins).next_eq] at hnext
    exact ⟨c.toString, (congrArg Lexeme.kind hnext).symm⟩
  · exact (hnothing hs).not_beginsToken hbegins

/-- A dollar sign without digits, and behind it a name that nothing closes. -/
theorem isInvalid_dollarBeforeBacktick :
    let front : Token := ⟨.identifier "a", ⟨⟨⟨1, 1⟩, "p"⟩, ⟨⟨1, 2⟩, "p"⟩⟩⟩
    let dollar : Token := ⟨.invalid "$", ⟨⟨⟨1, 2⟩, "p"⟩, ⟨⟨1, 3⟩, "p"⟩⟩⟩
    let backtick : Token := ⟨.invalid "\x60", ⟨⟨⟨1, 3⟩, "p"⟩, ⟨⟨1, 4⟩, "p"⟩⟩⟩
    let name : Token := ⟨.identifier "b", ⟨⟨⟨1, 4⟩, "p"⟩, ⟨⟨1, 5⟩, "p"⟩⟩⟩
    (ofText "p" "a$\x60b").tokens = [front] ++ dollar :: [backtick, name] ∧
      Token.chars [dollar, backtick, name] = '$' :: ['\x60', 'b'] ∧
      BeginsNoToken '$' ['\x60', 'b'] ∧
      (ofText "p" "a$\x60b").tokens = [front, dollar] ++ backtick :: [name] ∧
      Token.chars [backtick, name] = '\x60' :: ['b'] ∧
      BeginsNoToken '\x60' ['b'] := by
  intro front dollar backtick name
  have hdollar : (ofText "p" "a$\x60b").tokens = [front] ++ dollar :: [backtick, name] := by
    decide +kernel
  have hbacktick : (ofText "p" "a$\x60b").tokens = [front, dollar] ++ backtick :: [name] := hdollar
  have hbehind : Token.chars [dollar, backtick, name] = '$' :: ['\x60', 'b'] := by decide +kernel
  have hname : Token.chars [backtick, name] = '\x60' :: ['b'] := by decide +kernel
  exact ⟨hdollar, hbehind, (isInvalid_iff_of_ofText hdollar hbehind).2.1.1 ⟨"$", rfl⟩, hbacktick,
    hname, (isInvalid_iff_of_ofText hbacktick hname).2.1.1 ⟨"\x60", rfl⟩⟩

end TokenStream

end DeclFront
