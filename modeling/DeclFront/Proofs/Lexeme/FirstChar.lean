import DeclFront.Lexeme.Next

/-!
# Proofs/Lexeme/FirstChar — what the first character of a text rules out

Each recognizer but the one for symbols asks for a first character of its own, so most of them are
out of the question at a given character.  The lemmas say which, and `next` is read off the
recognizers that remain.
-/

namespace DeclFront

variable {c : Char} {cs : List Char}

namespace Munch

variable {first second : Munch} {text : List Char}

theorem read_one_of_neg {accepts : Char → Bool} (h : accepts c = false) (cs : List Char) :
    (one accepts).read (c :: cs) = none := by
  simp [one, h]

theorem read_char_of_ne {d : Char} (h : c ≠ d) (cs : List Char) :
    (char d).read (c :: cs) = none := by
  simp [char, one, h]

theorem read_seq_of_none (h : first.read text = none) (second : Munch) :
    (first.seq second).read text = none := by
  simp only [Munch.seq, h]

/-- Where no minus sign stands, a sign is nothing. -/
theorem read_sign_seq (h : c ≠ '-') (munch : Munch) (cs : List Char) :
    (sign.seq munch).read (c :: cs) = munch.read (c :: cs) := by
  have hsign : sign.read (c :: cs) = some ([], c :: cs) := by
    simp [sign, optional, char, one, h]
  simp only [Munch.seq, hsign]
  rcases munch.read (c :: cs) with _ | ⟨front, rest⟩ <;> rfl

/-- Every form of a number begins with a minus sign or a digit. -/
theorem read_numberForm_eq_none (form : NumberForm) (hminus : c ≠ '-') (hdigit : c.isDigit = false)
    (cs : List Char) : form.munch.read (c :: cs) = none := by
  have hzero : c ≠ '0' := by
    rintro rfl
    cases hdigit
  have hbased (letter : Char) (isDigit : Char → Bool) :
      (based letter isDigit).read (c :: cs) = none := by
    rw [based, read_sign_seq hminus]
    exact read_seq_of_none (read_char_of_ne hzero cs) _
  have hdecimal : (run Char.isDigit).read (c :: cs) = none :=
    read_seq_of_none (read_one_of_neg hdigit cs) _
  cases form with
  | binaryInteger => exact hbased _ _
  | octalInteger => exact hbased _ _
  | decimalInteger => exact (read_sign_seq hminus _ cs).trans hdecimal
  | hexadecimalInteger => exact hbased _ _
  | decimalFloat => exact (read_sign_seq hminus _ cs).trans (read_seq_of_none hdecimal _)
  | hexadecimalFloat => exact read_seq_of_none (hbased _ _) _

end Munch

namespace Lexeme

open Recognizer

theorem ofMunch_eq_none {munch : Munch} {kind : String → TokenKind} {text : List Char}
    (h : munch.read text = none) : ofMunch munch kind text = none := by
  rw [ofMunch, h]
  rfl

/-- A string begins with its quote. -/
theorem stringLiteral?_eq_none (h : c ≠ '\"') (cs : List Char) :
    stringLiteral? (c :: cs) = none := by
  simp [stringLiteral?, h]

/-- A number begins with a minus sign or a digit. -/
theorem numeral?_eq_none (hminus : c ≠ '-') (hdigit : c.isDigit = false) (cs : List Char) :
    numeral? (c :: cs) = none := by
  refine List.findSome?_eq_none_iff.2 fun recognizer hmem => ?_
  obtain ⟨form, -, rfl⟩ := List.mem_map.1 hmem
  exact ofMunch_eq_none (Munch.read_numberForm_eq_none form hminus hdigit cs)

/-- A word begins with the head of an identifier. -/
theorem word?_eq_none (h : isIdentifierHead c = false) (cs : List Char) : word? (c :: cs) = none :=
  ofMunch_eq_none (Munch.read_seq_of_none (Munch.read_one_of_neg h cs) _)

theorem quotedName?_eq_none (h : c ≠ '\x60') (cs : List Char) : quotedName? (c :: cs) = none := by
  simp [quotedName?, h]

theorem parameter?_eq_none (h : c ≠ '$') (cs : List Char) : parameter? (c :: cs) = none :=
  ofMunch_eq_none (Munch.read_seq_of_none (Munch.read_char_of_ne h cs) _)

/-- A comment begins with its mark. -/
theorem comment?_eq_none {text : List Char} (h : startsComment text = false) :
    comment? text = none := by
  unfold startsComment at h
  split at h
  · cases h
  · cases h
  · rename_i hline hblock
    unfold comment?
    split
    · exact absurd rfl (hline _)
    · exact absurd rfl (hblock _)
    · rfl

/-- Only a slash starts a comment. -/
theorem startsComment_of_ne (h : c ≠ '/') (cs : List Char) : startsComment (c :: cs) = false := by
  simp [startsComment, h]

/-- A delimiter is found unless a backtick opens a quoted name. -/
theorem delimiter?_eq_none_iff :
    delimiter? (c :: cs) = none ↔
      Punctuator.ofDelimiter? c = none ∨ opensQuotedName c cs = true := by
  rw [delimiter?]
  split
  · rename_i hopens
    exact iff_of_true rfl (.inr hopens)
  · rename_i hopens
    rw [Option.map_eq_none_iff, or_iff_left hopens]

/-- A character of operators begins one unless it begins a comment. -/
theorem operator?_eq_none_iff :
    operator? (c :: cs) = none ↔ (isOperatorChar c = true → startsComment (c :: cs) = true) := by
  by_cases hc : (isOperatorChar c && !startsComment (c :: cs)) = true
  · simp_all [operator?, symbolRun]
  · have hrun : symbolRun isOperatorChar (c :: cs) = ([], c :: cs) := by rw [symbolRun, if_neg hc]
    simpa [operator?, hrun] using hc

/-- **No symbol stands** where no operator character does but in front of a comment, and no
delimiter but a backtick that opens a name. -/
theorem symbol?_eq_none_iff :
    symbol? (c :: cs) = none ↔
      (isOperatorChar c = true → startsComment (c :: cs) = true) ∧
        (Punctuator.ofDelimiter? c = none ∨ opensQuotedName c cs = true) := by
  rw [symbol?, firstOf, List.findSome?_eq_none_iff]
  simp only [List.forall_mem_cons, List.not_mem_nil, false_implies, implies_true, and_true,
    delimiter?_eq_none_iff, operator?_eq_none_iff]
  constructor
  · rintro ⟨-, -, hdelimiter, hoperator⟩
    exact ⟨hoperator, hdelimiter⟩
  · rintro ⟨hoperator, hdelimiter⟩
    -- An arrow begins with an operator character, and two points with a delimiter.
    have hminus : c ≠ '-' := by
      rintro rfl
      have hstarts := hoperator (by decide)
      rw [startsComment_of_ne (by decide)] at hstarts
      cases hstarts
    have hpoint : c ≠ '.' := by
      rintro rfl
      rcases hdelimiter with hnone | hopens
      · cases hnone
      · cases hopens
    exact ⟨by simp [arrow?, hminus], by simp [pointOperator?, hpoint], hdelimiter, hoperator⟩

/-- What is neither a character of operators nor a delimiter is no symbol. -/
theorem symbol?_eq_none (hoperator : isOperatorChar c = false)
    (hdelimiter : Punctuator.ofDelimiter? c = none) (cs : List Char) :
    symbol? (c :: cs) = none :=
  symbol?_eq_none_iff.2 ⟨fun h => absurd (hoperator.symm.trans h) (by decide), .inl hdelimiter⟩

/-! ## What remains -/

/-- No recognizer finds anything. -/
def FindsNothing (c : Char) (cs : List Char) : Prop :=
  ∀ recognizer ∈ recognizers, recognizer (c :: cs) = none

theorem findsNothing_iff :
    FindsNothing c cs ↔
      stringLiteral? (c :: cs) = none ∧ numeral? (c :: cs) = none ∧ word? (c :: cs) = none ∧
        quotedName? (c :: cs) = none ∧ parameter? (c :: cs) = none ∧ comment? (c :: cs) = none ∧
          symbol? (c :: cs) = none ∧ control? (c :: cs) = none := by
  simp only [FindsNothing, recognizers, List.forall_mem_cons, List.not_mem_nil, false_implies,
    implies_true, and_true]

/-- What is read is what some recognizer found, or the first character where none finds anything. -/
theorem exists_found_or_eq_invalid (c : Char) (cs : List Char) :
    (∃ recognizer ∈ recognizers, recognizer (c :: cs) = some (next c cs)) ∨
      FindsNothing c cs ∧ next c cs = invalid c cs := by
  rcases hfirst : firstOf recognizers (c :: cs) with _ | lexeme
  · exact .inr ⟨List.findSome?_eq_none_iff.1 hfirst, by rw [next, hfirst, Option.getD_none]⟩
  · rw [next, hfirst, Option.getD_some]
    exact .inl (List.exists_of_findSome?_eq_some hfirst)

/-- No recognizer but the one for strings finds anything at a double quote. -/
theorem next_quote (cs : List Char) :
    next '\"' cs = (stringLiteral? ('\"' :: cs)).getD (invalid '\"' cs) := by
  have hsymbol := symbol?_eq_none (c := '\"') (by decide) rfl cs
  have hcomment := comment?_eq_none (startsComment_of_ne (c := '\"') (by decide) cs)
  simp only [next, firstOf, recognizers, List.findSome?_cons, hsymbol, hcomment,
    numeral?_eq_none (c := '\"') (by decide) (by decide),
    word?_eq_none (c := '\"') (by decide), quotedName?_eq_none (c := '\"') (by decide),
    parameter?_eq_none (c := '\"') (by decide)]
  rcases stringLiteral? ('\"' :: cs) with _ | lexeme <;> rfl

/-- A comment is read where one starts. -/
theorem next_slash {lexeme : Lexeme} (h : comment? ('/' :: cs) = some lexeme) :
    next '/' cs = lexeme := by
  simp only [next, firstOf, recognizers, List.findSome?_cons, h,
    stringLiteral?_eq_none (c := '/') (by decide),
    numeral?_eq_none (c := '/') (by decide) (by decide),
    word?_eq_none (c := '/') (by decide), quotedName?_eq_none (c := '/') (by decide),
    parameter?_eq_none (c := '/') (by decide)]
  rfl

/-- Where a comment starts one is read. -/
theorem comment?_eq_next (h : startsComment (c :: cs) = true) :
    comment? (c :: cs) = some (next c cs) := by
  unfold startsComment at h
  split at h
  · rename_i htext
    obtain ⟨rfl, rfl⟩ := List.cons.inj htext
    rw [next_slash rfl]
    rfl
  · rename_i htext
    obtain ⟨rfl, rfl⟩ := List.cons.inj htext
    rw [next_slash rfl]
    rfl
  · cases h

/-- A comment is found just where its mark stands. -/
theorem comment?_eq_none_iff :
    comment? (c :: cs) = none ↔ startsComment (c :: cs) = false := by
  refine ⟨fun h => ?_, comment?_eq_none⟩
  cases hstarts : startsComment (c :: cs) with
  | true =>
    rw [comment?_eq_next hstarts] at h
    cases h
  | false => rfl

/-- A comment is read where one is found. -/
theorem next_of_comment? {lexeme : Lexeme} (h : comment? (c :: cs) = some lexeme) :
    next c cs = lexeme := by
  rcases hstarts : startsComment (c :: cs) with _ | _
  · rw [comment?_eq_none hstarts] at h
    cases h
  · exact Option.some.inj ((comment?_eq_next hstarts).symm.trans h)

/-- No digit begins an identifier. -/
theorem isDigit_eq_false_of_isIdentifierHead (h : isIdentifierHead c = true) :
    c.isDigit = false := by
  refine Bool.eq_false_iff.2 fun hdigit => ?_
  simp only [Char.isDigit, Bool.and_eq_true, decide_eq_true_eq, UInt32.le_iff_toNat_le] at hdigit
  change 48 ≤ c.toNat ∧ c.toNat ≤ 57 at hdigit
  have hunderscore : c ≠ '_' := by
    rintro rfl
    exact absurd hdigit (by decide)
  have hletter : c.isAlpha = true := by
    have hascii : c.toNat < 128 := by omega
    simpa [isIdentifierHead, Unicode.isAlphabetic, hunderscore, hascii] using h
  change (decide (65 ≤ c.val ∧ c.val ≤ 90) ||
    (decide (97 ≤ c.val) && decide (c.val ≤ 122))) = true at hletter
  simp only [Bool.or_eq_true, Bool.and_eq_true, decide_eq_true_eq, UInt32.le_iff_toNat_le]
    at hletter
  change (65 ≤ c.toNat ∧ c.toNat ≤ 90) ∨ (97 ≤ c.toNat ∧ c.toNat ≤ 122) at hletter
  omega

/-- A word is read where an identifier begins. -/
theorem next_word {lexeme : Lexeme} (h : isIdentifierHead c = true)
    (hword : word? (c :: cs) = some lexeme) : next c cs = lexeme := by
  have hne {d : Char} (hd : isIdentifierHead d = false) : c ≠ d := by
    rintro rfl
    rw [h] at hd
    cases hd
  simp only [next, firstOf, recognizers, List.findSome?_cons, hword,
    stringLiteral?_eq_none (hne (d := '\"') (by decide)),
    numeral?_eq_none (hne (d := '-') (by decide)) (isDigit_eq_false_of_isIdentifierHead h)]
  rfl

/-- A parameter is read where a dollar sign stands. -/
theorem next_dollar {lexeme : Lexeme} (h : parameter? ('$' :: cs) = some lexeme) :
    next '$' cs = lexeme := by
  simp only [next, firstOf, recognizers, List.findSome?_cons, h,
    stringLiteral?_eq_none (c := '$') (by decide),
    numeral?_eq_none (c := '$') (by decide) (by decide),
    word?_eq_none (c := '$') (by decide), quotedName?_eq_none (c := '$') (by decide)]
  rfl

/-- Where no string, number, name or comment begins, symbols and blanks are left. -/
theorem next_of_sign (h : c ∉ ['\"', '-', '\x60', '$', '/']) (hdigit : c.isDigit = false)
    (hhead : isIdentifierHead c = false) (cs : List Char) :
    next c cs = ((symbol? (c :: cs)).or (control? (c :: cs))).getD (invalid c cs) := by
  simp only [List.mem_cons, not_or] at h
  have hcomment := comment?_eq_none (startsComment_of_ne h.2.2.2.2.1 cs)
  simp only [next, firstOf, recognizers, List.findSome?_cons, stringLiteral?_eq_none h.1,
    numeral?_eq_none h.2.1 hdigit, word?_eq_none hhead, quotedName?_eq_none h.2.2.1,
    parameter?_eq_none h.2.2.2.1, hcomment]
  rcases symbol? (c :: cs) with _ | lexeme
  · rcases control? (c :: cs) with _ | lexeme <;> rfl
  · rfl

/-- **A delimiter is read by itself**, but for a backtick and for two points. -/
theorem next_delimiter {p : Punctuator} (hp : Punctuator.ofDelimiter? c = some p)
    (hquote : c ≠ '\x60') (hpoint : c = '.' → cs.head? ≠ some '.') :
    next c cs = ⟨.punctuator p, [c], cs⟩ := by
  have hc : c ∉ ['\"', '-', '\x60', '$', '/'] ∧ c.isDigit = false ∧
      isIdentifierHead c = false := by
    unfold Punctuator.ofDelimiter? at hp
    split at hp <;> first | exact absurd rfl hquote | cases hp; decide | cases hp
  have hminus : c ≠ '-' := by
    rintro rfl
    exact hc.1 (by decide)
  have hopens : opensQuotedName c cs = false := by simp [opensQuotedName, hquote]
  have hsymbol : symbol? (c :: cs) = some ⟨.punctuator p, [c], cs⟩ := by
    have harrow : arrow? (c :: cs) = none := by simp [arrow?, hminus]
    have hpoints : pointOperator? (c :: cs) = none := by
      unfold pointOperator?
      split
      · rename_i h
        obtain ⟨rfl, rfl⟩ := List.cons.inj h
        exact absurd rfl (hpoint rfl)
      · rfl
    simp [symbol?, firstOf, harrow, hpoints, delimiter?, hopens, hp]
  rw [next_of_sign hc.1 hc.2.1 hc.2.2, hsymbol]
  rfl

/-- **A blank or a line end is read by itself.** -/
theorem next_control {k : Control} (hk : Control.ofChar? c = some k) :
    next c cs = ⟨.control k, [c], cs⟩ := by
  have hc : c ∉ ['\"', '-', '\x60', '$', '/'] ∧ c.isDigit = false ∧
      isIdentifierHead c = false ∧ Punctuator.ofDelimiter? c = none ∧
        isOperatorChar c = false := by
    unfold Control.ofChar? at hk
    split at hk <;> first | cases hk; decide | cases hk
  obtain ⟨hne, hdigit, hhead, hdelimiter, hoperator⟩ := hc
  rw [next_of_sign hne hdigit hhead, symbol?_eq_none hoperator hdelimiter, control?, hk]
  rfl

end Lexeme

end DeclFront
