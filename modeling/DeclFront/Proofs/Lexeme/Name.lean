import DeclFront.Proofs.Lexeme.Found
import DeclFront.Proofs.Lexeme.Legible

/-!
# Proofs/Lexeme/Name — the names that tokens give, written bare

Every token that gives a name gives a word or a parameter (`isName_of_mem_ofText`), also one between
backticks.  Written bare in front of a character that cannot continue it, a name is read as one
token (`legibleBefore_name`); whether that token gives the name again depends on the name alone: a
reserved word does not (`name?_ofWord_eq_none_iff`).
-/

namespace DeclFront

/-- The names that tokens give: words, and a dollar sign with digits. -/
inductive IsName : List Char → Prop where
  | word {c : Char} {cs : List Char} (hc : isIdentifierHead c = true)
      (hcs : ∀ d ∈ cs, isIdentifierChar d = true) : IsName (c :: cs)
  | parameter {c : Char} {cs : List Char} (hc : c.isDigit = true)
      (hcs : ∀ d ∈ cs, (d.isDigit || d == '_') = true) : IsName ('$' :: c :: cs)

/-- Whether characters are a name can be computed. -/
theorem isName_of_all {chars : List Char}
    (h : (chars.head?.any isIdentifierHead && chars.tail.all isIdentifierChar) = true) :
    IsName chars := by
  rw [Bool.and_eq_true] at h
  rcases chars with _ | ⟨c, cs⟩
  · exact absurd h.1 (by decide)
  · exact .word h.1 (List.all_eq_true.1 h.2)

/-- The words that are no names where they stand bare. -/
def IsReserved (n : String) : Prop :=
  n = "true" ∨ n = "false" ∨ n = "nil" ∨
    ∃ keyword, Keyword.ofWord? n = some keyword ∧ keyword.isContextual = false

/-! ## Reading words -/

/-- **A run is read to its end**: a head, all characters that continue it, and one that does not. -/
theorem Munch.read_one_seq_many_eq_some_iff {accepts continues : Char → Bool}
    {text front rest : List Char} :
    ((one accepts).seq (many continues)).read text = some (front, rest) ↔
      ∃ c cs, front = c :: cs ∧ accepts c = true ∧ (∀ d ∈ cs, continues d = true) ∧
        text = front ++ rest ∧ ∀ d ∈ rest.head?, continues d = false := by
  constructor
  · intro h
    rcases text with _ | ⟨c, cs⟩
    · simp [Munch.seq, one] at h
    cases hc : accepts c with
    | false => simp [Munch.seq, one, hc] at h
    | true =>
      simp only [Munch.seq, one, many, hc, if_true, Option.some.injEq, Prod.mk.injEq] at h
      obtain ⟨rfl, rfl⟩ := h
      refine ⟨c, cs.takeWhile continues, rfl, hc, List.all_eq_true.1 List.all_takeWhile, ?_, ?_⟩
      · rw [List.append_assoc, List.takeWhile_append_dropWhile]
        rfl
      · intro d hd
        have hhead := List.head?_dropWhile_not continues cs
        rw [Option.mem_def.1 hd] at hhead
        simpa using hhead
  · rintro ⟨c, cs, rfl, hc, hcs, rfl, hrest⟩
    have htake : rest.takeWhile continues = [] ∧ rest.dropWhile continues = rest := by
      rcases rest with _ | ⟨d, rest⟩
      · exact ⟨rfl, rfl⟩
      · have hd : ¬ continues d = true := by simp [hrest d rfl]
        exact ⟨List.takeWhile_cons_of_neg hd, List.dropWhile_cons_of_neg hd⟩
    simp only [Munch.seq, one, many, List.cons_append, hc, if_true,
      List.takeWhile_append_of_pos hcs, List.dropWhile_append_of_pos hcs, htake.1, htake.2,
      List.append_nil]
    rfl

/-- What is read as a word is a name. -/
theorem isName_of_read_word {text front rest : List Char}
    (h : Munch.word.read text = some (front, rest)) : IsName front := by
  obtain ⟨c, cs, rfl, hc, hcs, -⟩ := Munch.read_one_seq_many_eq_some_iff.1 h
  exact .word hc hcs

/-- So is a parameter. -/
theorem isName_of_read_parameter {text front rest : List Char}
    (h : ((Munch.char '$').seq (.run Char.isDigit)).read text = some (front, rest)) :
    IsName front := by
  rcases text with _ | ⟨c, text⟩
  · simp [Munch.seq, Munch.char, Munch.one] at h
  by_cases hc : c = '$'
  · subst hc
    simp only [Munch.seq, Munch.char, Munch.one, beq_self_eq_true, if_true] at h
    rcases hrun : (Munch.run Char.isDigit).read text with _ | ⟨digits, middle⟩
    · rw [hrun] at h
      cases h
    · rw [hrun] at h
      cases h
      obtain ⟨d, ds, rfl, hd, hds, -⟩ := Munch.read_one_seq_many_eq_some_iff.1 hrun
      exact .parameter hd hds
  · simp [Munch.seq, Munch.char, Munch.one, hc] at h

/-! ## The kinds of words -/

namespace TokenKind

/-- No word is trivia. -/
theorem isTrivia_ofWord (word : String) : (ofWord word).isTrivia = false := by
  rw [ofWord]
  split
  · rfl
  · split <;> rfl

/-- A word that is read as a name is read as itself. -/
theorem name?_ofWord {word n : String} (h : (ofWord word).name? = some n) : n = word := by
  unfold ofWord at h
  split at h
  · cases h
  · split at h
    · rename_i keyword hkeyword
      rw [name?] at h
      split at h
      · rw [← Option.some.inj h, Keyword.word_eq_of_ofWord? hkeyword]
      · cases h
    · exact (Option.some.inj h).symm

/-- **A word gives no name exactly when it is reserved.** -/
theorem name?_ofWord_eq_none_iff {n : String} : (ofWord n).name? = none ↔ IsReserved n := by
  have hliteral : (Literal.ofWord? n).isSome = true ↔ n = "true" ∨ n = "false" ∨ n = "nil" := by
    unfold Literal.ofWord?
    split <;> simp_all
  have hreserved : IsReserved n ↔ (Literal.ofWord? n).isSome = true ∨
      ∃ keyword, Keyword.ofWord? n = some keyword ∧ keyword.isContextual = false := by
    rw [hliteral, IsReserved, or_assoc, or_assoc]
  rw [hreserved, ofWord]
  rcases Literal.ofWord? n with _ | literal
  · rcases Keyword.ofWord? n with _ | keyword
    · simp [name?]
    · simp [name?]
  · simp [name?]

instance (n : String) : Decidable (IsReserved n) := decidable_of_iff _ name?_ofWord_eq_none_iff

/-- A word that is not reserved gives itself as a name. -/
theorem name?_ofWord_of_not_isReserved {n : String} (h : ¬ IsReserved n) :
    (ofWord n).name? = some n := by
  rcases hname : (ofWord n).name? with _ | m
  · exact absurd (name?_ofWord_eq_none_iff.1 hname) h
  · rw [name?_ofWord hname]

/-- No keyword and no literal begins with a dollar sign. -/
theorem ofWord_of_dollar {n : String} (h : n.toList.head? = some '$') :
    ofWord n = identifier n := by
  have hliteral : Literal.ofWord? n = none := by
    unfold Literal.ofWord?
    split <;> first | exact absurd h (by decide) | rfl
  have hkeyword : Keyword.ofWord? n = none := by
    rcases hk : Keyword.ofWord? n with _ | keyword
    · rfl
    · have hall : ∀ k ∈ Keyword.all, k.word.toList.head? ≠ some '$' := by decide
      have hmem := List.mem_of_find?_eq_some hk
      rw [← Keyword.word_eq_of_ofWord? hk] at h
      exact absurd h (hall keyword hmem)
  rw [ofWord, hliteral]
  simp only [hkeyword]

end TokenKind

/-! ## Bare names -/

/-- What may follow a name that is written bare. -/
def endsName (c : Char) : Bool := !isIdentifierChar c && !c.isDigit && c != '_'

/-- **A name written bare is read as one token**, in front of what cannot continue it. -/
theorem legibleBefore_name {n : String} (hn : IsName n.toList) {rest : List Char}
    (hrest : ∀ c ∈ rest.head?, endsName c = true) :
    (TokenKind.ofWord n).LegibleBefore rest := by
  have hspelling : (TokenKind.ofWord n).spelling.toList = n.toList :=
    congrArg String.toList (TokenKind.spelling_ofWord n)
  generalize hchars : n.toList = chars at hn hspelling
  have hofList : String.ofList chars = n := by rw [← hchars, String.ofList_toList]
  cases hn with
  | @word c cs hc hcs =>
    refine ⟨c, cs, hspelling, Lexeme.next_word hc ?_⟩
    have hread : Munch.word.read (c :: (cs ++ rest)) = some (c :: cs, rest) :=
      Munch.read_one_seq_many_eq_some_iff.2 ⟨c, cs, rfl, hc, hcs, rfl, fun d hd => by
        have := hrest d hd
        simp only [endsName, Bool.and_eq_true, Bool.not_eq_true'] at this
        exact this.1.1⟩
    rw [Lexeme.word?, Recognizer.ofMunch, hread, ← hofList]
    rfl
  | @parameter c cs hc hcs =>
    refine ⟨'$', c :: cs, hspelling, Lexeme.next_dollar ?_⟩
    have hdigits : (Munch.run Char.isDigit).read (c :: (cs ++ rest)) = some (c :: cs, rest) :=
      Munch.read_one_seq_many_eq_some_iff.2 ⟨c, cs, rfl, hc, hcs, rfl, fun d hd => by
        have := hrest d hd
        simp only [endsName, Bool.and_eq_true, Bool.not_eq_true', bne_iff_ne] at this
        simp [this.1.2, this.2]⟩
    have hread : ((Munch.char '$').seq (.run Char.isDigit)).read ('$' :: (c :: cs ++ rest)) =
        some ('$' :: c :: cs, rest) := by
      simp only [Munch.seq, Munch.char, Munch.one, beq_self_eq_true, if_true, List.cons_append,
        hdigits]
      rfl
    rw [TokenKind.ofWord_of_dollar (by rw [hchars]; rfl), Lexeme.parameter?, Recognizer.ofMunch,
      ← hofList]
    exact congrArg (Option.map _) hread

/-! ## Names in a text -/

/-- The kind gives no name but a word or a parameter. -/
def TokenKind.GivesName (k : TokenKind) : Prop := ∀ n, k.name? = some n → IsName n.toList

/-- Where a lexeme gives a name, it was read as a word or a parameter. -/
theorem Lexeme.givesName_next (c : Char) (cs : List Char) : (next c cs).kind.GivesName := by
  cases isFound_next c cs with
  | word hfound =>
    obtain ⟨hread, hkind⟩ := read_of_ofMunch hfound
    rw [hkind]
    intro n hn
    rw [TokenKind.name?_ofWord hn, String.toList_ofList]
    exact isName_of_read_word hread
  | quotedName hfound =>
    obtain ⟨name, rest, hread, -, hlexeme⟩ := quotedName?_eq_some_iff.1 hfound
    rw [hlexeme]
    rintro _ ⟨⟩
    rw [String.toList_ofList]
    exact isName_of_read_word hread
  | parameter hfound =>
    obtain ⟨hread, hkind⟩ := read_of_ofMunch hfound
    rw [hkind]
    rintro _ ⟨⟩
    rw [String.toList_ofList]
    exact isName_of_read_parameter hread
  | _ =>
    rename_i hkind
    rw [hkind]
    rintro n ⟨⟩

/-- **Every name in a text is a word or a parameter.** -/
theorem isName_of_mem_ofText {path : String} {p : Position} {text : List Char} {t : Token}
    (ht : t ∈ Token.ofText path p text) : t.kind.GivesName := by
  fun_induction Token.ofText path p text with
  | case1 => cases ht
  | case2 p c cs lexeme stop ih =>
    rcases List.mem_cons.1 ht with rfl | ht
    · exact Lexeme.givesName_next c cs
    · exact ih ht

end DeclFront
