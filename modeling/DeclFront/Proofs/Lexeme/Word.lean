import DeclFront.Proofs.Lexeme.Longest
import DeclFront.Proofs.Lexeme.Name
import DeclFront.Proofs.Tiling

/-!
# Proofs/Lexeme/Word — words are read whole and told what they are

A word runs over all identifier characters, and only then is it looked up: `IsKindOfWord` says, from
the list of literal words and the table of keywords, what a whole word is, and the look-ups agree
with it (`isKindOfWord_iff`).  Nothing but a word is a keyword, `true`, `false` or `nil`, and
nothing but a word or a parameter is an identifier (`IsApart`).  So no such token is a part of a
longer word.
-/

namespace DeclFront

/-! ## Special words -/

/-- The words that are literals, each with its value. -/
def literalWords : List (String × Literal) :=
  [("true", .boolean true), ("false", .boolean false), ("nil", .nil)]

/-- The word is a literal or stands in the table of keywords. -/
def IsSpecial (word : String) : Prop :=
  (∃ value, (word, value) ∈ literalWords) ∨
    ∃ category words, (category, words) ∈ Keyword.table ∧ word ∈ words

/-- What a whole word is: a literal, else a keyword of the category that the table has it in, else a
name. -/
inductive IsKindOfWord (word : String) : TokenKind → Prop where
  | literal {value : Literal} (hvalue : (word, value) ∈ literalWords) :
      IsKindOfWord word (.literal value)
  | keyword {category : KeywordCategory} {words : List String}
      (hliteral : ∀ value, (word, value) ∉ literalWords)
      (hrow : (category, words) ∈ Keyword.table) (hword : word ∈ words) :
      IsKindOfWord word (.keyword ⟨word, category⟩)
  | name (hname : ¬ IsSpecial word) : IsKindOfWord word (.identifier word)

variable {word : String}

/-- The literals are the words of their table. -/
theorem Literal.ofWord?_eq_some_iff {value : Literal} :
    ofWord? word = some value ↔ (word, value) ∈ literalWords := by
  unfold ofWord?
  split <;> simp_all [literalWords, eq_comm]

namespace Keyword

/-- The keywords are the words of the table, with their categories. -/
theorem mem_all_iff {k : Keyword} :
    k ∈ all ↔ ∃ words, (k.category, words) ∈ table ∧ k.word ∈ words := by
  simp only [all, List.mem_flatMap, List.mem_map, Prod.exists]
  constructor
  · rintro ⟨category, words, hrow, word, hword, rfl⟩
    exact ⟨words, hrow, hword⟩
  · rintro ⟨words, hrow, hword⟩
    exact ⟨k.category, words, hrow, k.word, hword, rfl⟩

/-- **No word stands in the table twice.** -/
theorem nodup_map_word_all : (all.map Keyword.word).Nodup := by decide

/-- A keyword is found just by its own word. -/
theorem ofWord?_eq_some_iff {k : Keyword} : ofWord? word = some k ↔ k ∈ all ∧ k.word = word := by
  constructor
  · exact fun h => ⟨List.mem_of_find?_eq_some h, word_eq_of_ofWord? h⟩
  · rintro ⟨hk, rfl⟩
    have hfound : (ofWord? k.word).isSome = true :=
      List.find?_isSome.2 ⟨k, hk, beq_self_eq_true k.word⟩
    obtain ⟨found, hfound⟩ := Option.isSome_iff_exists.1 hfound
    rw [hfound, List.inj_on_of_nodup_map nodup_map_word_all (List.mem_of_find?_eq_some hfound) hk
      (word_eq_of_ofWord? hfound)]

end Keyword

/-- **The look-ups say what a word is.** -/
theorem isKindOfWord_iff {k : TokenKind} : IsKindOfWord word k ↔ k = .ofWord word := by
  have hunique {k : TokenKind} (h : IsKindOfWord word k) : k = .ofWord word := by
    cases h with
    | literal hvalue => rw [TokenKind.ofWord, Literal.ofWord?_eq_some_iff.2 hvalue]
    | keyword hliteral hrow hword =>
      have hnone : Literal.ofWord? word = none := Option.eq_none_iff_forall_ne_some.2
        fun value hvalue => hliteral value (Literal.ofWord?_eq_some_iff.1 hvalue)
      have hkeyword := Keyword.ofWord?_eq_some_iff.2
        ⟨Keyword.mem_all_iff (k := ⟨word, _⟩).2 ⟨_, hrow, hword⟩, rfl⟩
      rw [TokenKind.ofWord, hnone]
      simp only [hkeyword]
    | name hname =>
      have hnone : Literal.ofWord? word = none := Option.eq_none_iff_forall_ne_some.2
        fun value hvalue => hname (.inl ⟨value, Literal.ofWord?_eq_some_iff.1 hvalue⟩)
      have hkeyword : Keyword.ofWord? word = none := by
        refine Option.eq_none_iff_forall_ne_some.2 fun k hk => ?_
        obtain ⟨hall, rfl⟩ := Keyword.ofWord?_eq_some_iff.1 hk
        exact hname (.inr ⟨k.category, Keyword.mem_all_iff.1 hall⟩)
      rw [TokenKind.ofWord, hnone]
      simp only [hkeyword]
  have hexists : ∃ k, IsKindOfWord word k := by
    by_cases hliteral : ∃ value, (word, value) ∈ literalWords
    · exact ⟨_, .literal hliteral.choose_spec⟩
    by_cases hkeyword : ∃ category words, (category, words) ∈ Keyword.table ∧ word ∈ words
    · obtain ⟨category, words, hrow, hword⟩ := hkeyword
      exact ⟨_, .keyword (not_exists.1 hliteral) hrow hword⟩
    · exact ⟨_, .name (not_or.2 ⟨hliteral, hkeyword⟩)⟩
  obtain ⟨found, hfound⟩ := hexists
  refine ⟨hunique, ?_⟩
  rintro rfl
  exact hunique hfound ▸ hfound

/-- A word that is an identifier is none of the special ones. -/
theorem IsKindOfWord.of_identifier {n : String} (h : IsKindOfWord word (.identifier n)) :
    n = word ∧ ¬ IsSpecial n := by
  cases h with
  | name hname => exact ⟨rfl, hname⟩

/-- No parameter is a special word. -/
theorem not_isSpecial_of_mem_parameters (h : word.toList ∈ Munch.parameters) :
    ¬ IsSpecial word := by
  obtain ⟨_, ⟨c, hc, rfl⟩, digits, -, hword⟩ := h
  have hdollar : word.toList.head? = some '$' := by rw [← hword, eq_of_beq hc]; rfl
  exact (IsKindOfWord.of_identifier
    (isKindOfWord_iff.2 (TokenKind.ofWord_of_dollar hdollar).symm)).2

/-! ## What else is read -/

namespace TokenKind

/-- The kind is that of a special word. -/
def isSpecial : TokenKind → Bool
  | keyword _ | literal (.boolean _) | literal .nil => true
  | _ => false

/-- The kind of a plain identifier. -/
def isIdentifier : TokenKind → Bool
  | identifier _ => true
  | _ => false

/-- The kind is that of no word: it is not special, and no identifier but a parameter. -/
structure IsApart (k : TokenKind) : Prop where
  isSpecial_eq : k.isSpecial = false
  mem_parameters : ∀ n, k = identifier n → n.toList ∈ Munch.parameters

/-- A kind that is neither special nor an identifier is that of no word. -/
theorem isApart_of_isIdentifier {k : TokenKind} (h : k.isSpecial = false)
    (hname : k.isIdentifier = false) : k.IsApart := by
  refine ⟨h, ?_⟩
  rintro n rfl
  cases hname

end TokenKind

/-- Where an identifier begins, its characters are read. -/
theorem Munch.read_word {c : Char} (h : isIdentifierHead c = true) (cs : List Char) :
    Munch.word.read (c :: cs) =
      some ((c :: cs).takeWhile isIdentifierChar, (c :: cs).dropWhile isIdentifierChar) := by
  have hc := isIdentifierChar_of_isIdentifierHead h
  rw [List.takeWhile_cons_of_pos hc, List.dropWhile_cons_of_pos hc]
  simp [Munch.word, Munch.seq, Munch.one, Munch.many, h]

namespace Lexeme

open Recognizer

variable {c : Char} {cs : List Char}

/-- **No recognizer but the one for words gives the kind of a word.** -/
theorem isApart_next (h : isIdentifierHead c = false) (cs : List Char) :
    (next c cs).kind.IsApart := by
  cases isFound_next c cs with
  | word hfound =>
    rw [word?_eq_none h] at hfound
    cases hfound
  | parameter hfound =>
    obtain ⟨hread, hkind⟩ := read_of_ofMunch hfound
    rw [hkind]
    refine ⟨rfl, ?_⟩
    rintro _ ⟨⟩
    rw [String.toList_ofList]
    exact Munch.readsLongest_parameter.mem hread
  | _ =>
    rename_i hkind
    rw [hkind]
    exact TokenKind.isApart_of_isIdentifier rfl rfl

/-- **A word is read to its end.** -/
theorem next_of_isIdentifierHead (h : isIdentifierHead c = true) (cs : List Char) :
    next c cs = ⟨.ofWord (String.ofList ((c :: cs).takeWhile isIdentifierChar)),
      (c :: cs).takeWhile isIdentifierChar, (c :: cs).dropWhile isIdentifierChar⟩ := by
  refine next_word h ?_
  rw [word?, ofMunch, Munch.read_word h]
  rfl

end Lexeme

namespace TokenStream

variable {path text : String} {front back : List Token} {t : Token}

/-- **Words are read whole and told what they are**, at any place of any text.  A token whose first
character can begin an identifier is spelled by all the identifier characters that stand there, and
its kind is what this word is.  So behind a keyword or a literal word no identifier character
stands, no identifier is spelled like one, and every other identifier is a parameter. -/
theorem isWhole_of_ofText (h : (ofText path text).tokens = front ++ t :: back) :
    (∀ c ∈ t.spelling.toList.head?, isIdentifierHead c = true →
      t.spelling.toList = (Token.chars (t :: back)).takeWhile isIdentifierChar ∧
        ∀ k, IsKindOfWord t.spelling k ↔ k = t.kind) ∧
    (t.kind.isSpecial = true → ∀ d ∈ (Token.chars back).head?, isIdentifierChar d = false) ∧
    ∀ name, t.kind = .identifier name → ¬ IsSpecial name ∧
      ((∃ c ∈ name.toList.head?, isIdentifierHead c = true) ∨
        name.toList ∈ Munch.parameters) := by
  obtain ⟨c, cs, hchars, hfirst, hnext⟩ := Token.exists_next_of_ofText h
  cases hc : isIdentifierHead c with
  | true =>
    rw [Lexeme.next_of_isIdentifierHead hc] at hnext
    obtain ⟨hkind, hword, hback⟩ := Lexeme.mk.inj hnext
    rw [hword, String.ofList_toList] at hkind
    refine ⟨fun _ _ _ => ⟨hchars ▸ hword.symm, fun k => ?_⟩, fun _ d hd => ?_, fun name hname => ?_⟩
    · rw [isKindOfWord_iff, hkind]
    · have hstop := List.head?_dropWhile_not isIdentifierChar (c :: cs)
      rw [hback, Option.mem_def.1 hd] at hstop
      simpa using hstop
    · obtain ⟨rfl, hspecial⟩ := (isKindOfWord_iff.2 (hname.symm.trans hkind.symm)).of_identifier
      exact ⟨hspecial, .inl ⟨c, hfirst, hc⟩⟩
  | false =>
    have hapart := Lexeme.isApart_next hc cs
    rw [hnext] at hapart
    refine ⟨fun d hd hhead => ?_, fun hspecial => ?_, fun name hname => ?_⟩
    · rw [hfirst] at hd
      obtain rfl := Option.some.inj hd
      rw [hc] at hhead
      cases hhead
    · rw [hapart.isSpecial_eq] at hspecial
      cases hspecial
    · have hparameter := hapart.mem_parameters name hname
      exact ⟨not_isSpecial_of_mem_parameters hparameter, .inr hparameter⟩

/-- A word that goes on behind `nil` is a name; and right behind a number a word begins. -/
theorem isWhole_nilUnderscore :
    let name : Token := ⟨.identifier "nil_", ⟨⟨⟨1, 1⟩, "p"⟩, ⟨⟨1, 5⟩, "p"⟩⟩⟩
    let plus : Token := ⟨.operator "+", ⟨⟨⟨1, 5⟩, "p"⟩, ⟨⟨1, 6⟩, "p"⟩⟩⟩
    let number : Token := ⟨.literal (.number .decimalInteger "1"),
      ⟨⟨⟨1, 6⟩, "p"⟩, ⟨⟨1, 7⟩, "p"⟩⟩⟩
    let keyword : Token := ⟨.keyword ⟨"set", .contextual .accessor⟩,
      ⟨⟨⟨1, 7⟩, "p"⟩, ⟨⟨1, 10⟩, "p"⟩⟩⟩
    (ofText "p" "nil_+1set").tokens = [] ++ name :: [plus, number, keyword] ∧
      name.spelling.toList =
        (Token.chars [name, plus, number, keyword]).takeWhile isIdentifierChar ∧
      ¬ IsSpecial "nil_" ∧
      (ofText "p" "nil_+1set").tokens = [name, plus, number] ++ keyword :: [] ∧
      ∀ k, IsKindOfWord "set" k ↔ k = keyword.kind := by
  intro name plus number keyword
  have hname : (ofText "p" "nil_+1set").tokens = [] ++ name :: [plus, number, keyword] := by
    decide +kernel
  have hkeyword : (ofText "p" "nil_+1set").tokens = [name, plus, number] ++ keyword :: [] := hname
  obtain ⟨hwhole, -, hidentifier⟩ := isWhole_of_ofText hname
  exact ⟨hname, (hwhole 'n' (by decide) (by decide)).1, (hidentifier "nil_" rfl).1, hkeyword,
    ((isWhole_of_ofText hkeyword).1 's' (by decide) (by decide)).2⟩

end TokenStream

end DeclFront
