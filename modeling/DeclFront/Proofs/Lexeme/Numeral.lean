import DeclFront.Proofs.Lexeme.FirstChar
import DeclFront.Proofs.Lexeme.Longest
import DeclFront.Proofs.Tiling

/-!
# Proofs/Lexeme/Numeral — the first form that reads a number reads the longest

    hexadecimal float ─▸ hexadecimal ─▸ binary ─▸ octal ─▸ decimal float ─▸ decimal
          p P                 x            b        o          . e E

The forms of a number are tried in this order.  Each but the last has *marks*, here below it: every
number of the form holds one (`exists_mark`), and no number of a form further on holds any.  So a
number of one form is not even the beginning of a number of a later form (`pairwise_not_prefix`):
what a form reads, no later one reads further, and no number has two forms (`eq_of_mem_texts`).
-/

namespace DeclFront

namespace Munch

/-! ## Characters that a word cannot be without -/

/-- Every word of the language holds one of the letters. -/
def HoldsOneOf (L : Language Char) (letters : List Char) : Prop :=
  ∀ word ∈ L, ∃ c ∈ word, c ∈ letters

variable {L M : Language Char} {letters : List Char}

theorem holdsOneOf_oneOf {accepts : Char → Bool} (h : ∀ c, accepts c = true → c ∈ letters) :
    HoldsOneOf (oneOf accepts) letters := by
  rintro _ ⟨c, hc, rfl⟩
  exact ⟨c, List.mem_singleton_self c, h c hc⟩

namespace HoldsOneOf

/-- What the first factor has to hold, the product has to. -/
theorem mul_left (h : HoldsOneOf L letters) (M : Language Char) : HoldsOneOf (L * M) letters := by
  rintro _ ⟨a, ha, b, -, rfl⟩
  obtain ⟨c, hc, hletter⟩ := h a ha
  exact ⟨c, List.mem_append_left b hc, hletter⟩

theorem mul_right (L : Language Char) (h : HoldsOneOf M letters) :
    HoldsOneOf (L * M) letters := by
  rintro _ ⟨a, -, b, hb, rfl⟩
  obtain ⟨c, hc, hletter⟩ := h b hb
  exact ⟨c, List.mem_append_right a hc, hletter⟩

theorem add (hL : HoldsOneOf L letters) (hM : HoldsOneOf M letters) :
    HoldsOneOf (L + M) letters :=
  fun word hword => hword.elim (hL word) (hM word)

end HoldsOneOf

/-! ## The longest word -/

/-- Of the words of the language that the text begins with, the word is the longest. -/
structure IsLongestAt (L : Language Char) (text word : List Char) : Prop where
  mem : word ∈ L
  isPrefix : word <+: text
  longest : ∀ other ∈ L, other <+: text → other <+: word

end Munch

namespace NumberForm

open Munch

/-! ## Marks -/

/-- The characters that tell the numbers of the form from those of the forms tried after it. -/
def marks : NumberForm → List Char
  | hexadecimalFloat => ['p', 'P']
  | hexadecimalInteger => ['x']
  | binaryInteger => ['b']
  | octalInteger => ['o']
  | decimalFloat => ['.', 'e', 'E']
  | decimalInteger => []

/-- **A number holds a mark of its form.** -/
theorem exists_mark {form : NumberForm} (h : form.marks ≠ []) :
    HoldsOneOf form.texts form.marks := by
  have char {d : Char} {letters : List Char} (hd : d ∈ letters) :
      HoldsOneOf (oneOf (· == d)) letters :=
    holdsOneOf_oneOf fun _ hc => eq_of_beq hc ▸ hd
  have based (letter : Char) (isDigit : Char → Bool) :
      HoldsOneOf (basedIntegers letter isDigit) [letter] :=
    .mul_right _ (.mul_right _ ((char (List.mem_singleton_self letter)).mul_left _))
  have exponent {letters within : List Char} (hwithin : within ⊆ letters) :
      HoldsOneOf (exponents within) letters :=
    (holdsOneOf_oneOf fun _ hc => hwithin (List.contains_iff_mem.1 hc)).mul_left _
  cases form with
  | binaryInteger => exact based _ _
  | octalInteger => exact based _ _
  | decimalInteger => exact absurd rfl h
  | hexadecimalInteger => exact based _ _
  | decimalFloat =>
    have fraction : HoldsOneOf (fractions Char.isDigit) ['.', 'e', 'E'] :=
      (char (by decide)).mul_left _
    exact .mul_right _ (.mul_right _ ((fraction.mul_left _).add (exponent (by decide))))
  | hexadecimalFloat => exact .mul_right _ (.mul_right _ (exponent (List.Subset.refl _)))

/-- **No number of a form begins a number of a form tried after it.** -/
theorem pairwise_not_prefix : inOrder.Pairwise fun form later =>
    ∀ word ∈ form.texts, ∀ other ∈ later.texts, ¬ word <+: other := by
  have hmarks : inOrder.Pairwise fun form later =>
      form.marks ≠ [] ∧ form.marks.all (!later.holds ·) = true := by decide
  refine hmarks.imp fun ⟨hne, hlater⟩ word hword other hother hstart => ?_
  obtain ⟨c, hc, hmark⟩ := exists_mark hne word hword
  have habsent := List.all_eq_true.1 hlater c hmark
  rw [Bool.not_eq_true'] at habsent
  exact (madeOf_holds _).notMem habsent hother (hstart.subset hc)

theorem mem_inOrder (form : NumberForm) : form ∈ inOrder := by cases form <;> decide

/-- **No number has two forms.** -/
theorem eq_of_mem_texts {form other : NumberForm} {word : List Char} (h : word ∈ form.texts)
    (hother : word ∈ other.texts) : form = other := by
  by_contra hne
  have hsymm : Std.Symm fun form other : NumberForm => word ∈ form.texts → word ∉ other.texts :=
    ⟨fun _ _ hforms hother hform => hforms hform hother⟩
  have hdisjoint : inOrder.Pairwise fun form other => word ∈ form.texts → word ∉ other.texts :=
    pairwise_not_prefix.imp fun hforms hform hlater =>
      hforms word hform word hlater List.prefix_rfl
  exact hdisjoint.forall (mem_inOrder form) (mem_inOrder other) hne h hother

/-! ## The first form that reads -/

/-- The numbers in all forms. -/
def numbers : Language Char := {word | ∃ form : NumberForm, word ∈ form.texts}

/-- The recognizer for one form. -/
def recognizer (form : NumberForm) : Recognizer :=
  .ofMunch form.munch fun spelling => .literal (.number form spelling)

/-- Of forms of which none begins a later one, the first that reads something reads the longest. -/
theorem exists_form_of_firstOf {forms : List NumberForm} {text : List Char} {lexeme : Lexeme}
    (hforms : forms.Pairwise fun form later =>
      ∀ word ∈ form.texts, ∀ other ∈ later.texts, ¬ word <+: other)
    (h : Recognizer.firstOf (forms.map recognizer) text = some lexeme) :
    ∃ form, lexeme.kind = .literal (.number form (String.ofList lexeme.chars)) ∧
      lexeme.chars ∈ form.texts ∧ lexeme.chars ++ lexeme.rest = text ∧
      ∀ other ∈ forms, ∀ word ∈ other.texts, word <+: text → word <+: lexeme.chars := by
  induction forms with
  | nil => cases h
  | cons form forms ih =>
    rw [List.pairwise_cons] at hforms
    have hreads := readsLongest_numberForm form
    rw [List.map_cons, Recognizer.firstOf, List.findSome?_cons, recognizer, Recognizer.ofMunch] at h
    rcases hread : form.munch.read text with _ | ⟨front, rest⟩ <;> rw [hread] at h
    · obtain ⟨found, hkind, hmem, htext, hlongest⟩ := ih hforms.2 h
      refine ⟨found, hkind, hmem, htext,
        List.forall_mem_cons.2 ⟨fun word hword hstart => ?_, hlongest⟩⟩
      exact absurd hstart (hreads.read_eq_none_iff.1 hread word hword)
    · obtain rfl := Option.some.inj h
      obtain ⟨hmem, htext, hlongest⟩ := hreads.read_eq_some_iff.1 hread
      refine ⟨form, rfl, hmem, htext, List.forall_mem_cons.2 ⟨hlongest, ?_⟩⟩
      intro later hlater word hword hstart
      rcases List.prefix_or_prefix_of_prefix hstart (prefix_of_read hread) with hshort | hlong
      · exact hshort
      · exact absurd hlong (hforms.1 later hlater front hmem word hword)

end NumberForm

namespace Lexeme

open Munch

variable {c : Char} {cs : List Char} {lexeme : Lexeme}

/-- **A number that is read is the longest**, in its one form. -/
theorem isLongestAt_of_numeral? {text : List Char} (h : numeral? text = some lexeme) :
    IsLongestAt NumberForm.numbers text lexeme.chars ∧
      ∃ form : NumberForm, lexeme.kind = .literal (.number form (String.ofList lexeme.chars)) ∧
        ∀ other : NumberForm, lexeme.chars ∈ other.texts ↔ other = form := by
  obtain ⟨form, hkind, hmem, htext, hlongest⟩ :=
    NumberForm.exists_form_of_firstOf NumberForm.pairwise_not_prefix h
  refine ⟨⟨⟨form, hmem⟩, ⟨lexeme.rest, htext⟩, ?_⟩, form, hkind, fun other => ⟨?_, ?_⟩⟩
  · rintro word ⟨other, hword⟩ hstart
    exact hlongest other other.mem_inOrder word hword hstart
  · exact fun hother => NumberForm.eq_of_mem_texts hother hmem
  · rintro rfl
    exact hmem

/-- A number is read at a digit, also behind a minus sign. -/
theorem exists_numeral? (hc : c.isDigit = true ∨ c = '-' ∧ ∃ d ∈ cs.head?, d.isDigit = true) :
    ∃ lexeme, numeral? (c :: cs) = some lexeme := by
  have digit {d : Char} (hd : d.isDigit = true) : [d] ∈ runs Char.isDigit :=
    ⟨[d], ⟨d, hd, rfl⟩, [], List.forall_mem_nil _, rfl⟩
  have hword : ∃ word ∈ NumberForm.decimalInteger.texts, word <+: c :: cs := by
    rcases hc with hc | ⟨rfl, d, hd, hdigit⟩
    · exact ⟨[c], ⟨[], .inr rfl, [c], digit hc, rfl⟩, cs, rfl⟩
    · obtain ⟨ds, rfl⟩ := List.head?_eq_some_iff.1 hd
      exact ⟨['-', d], ⟨['-'], .inl ⟨'-', rfl, rfl⟩, [d], digit hdigit, rfl⟩, ds, rfl⟩
  obtain ⟨word, hmem, hstart⟩ := hword
  obtain ⟨front, rest, hread⟩ := (readsLongest_numberForm .decimalInteger).exists_read hmem hstart
  refine Option.isSome_iff_exists.1 (List.findSome?_isSome_iff.2 ?_)
  refine ⟨_, List.mem_map_of_mem (NumberForm.mem_inOrder .decimalInteger), ?_⟩
  rw [Recognizer.ofMunch, hread]
  rfl

/-- A number that is found is what is read: no string or comment begins like one. -/
theorem next_of_numeral? (h : numeral? (c :: cs) = some lexeme) : next c cs = lexeme := by
  have hquote : c ≠ '\"' := by
    rintro rfl
    rw [numeral?_eq_none (by decide) (by decide)] at h
    cases h
  simp only [next, Recognizer.firstOf, recognizers, List.findSome?_cons,
    stringLiteral?_eq_none hquote, h]
  rfl

end Lexeme

namespace TokenStream

open Munch

variable {path text : String} {front back : List Token} {t : Token} {c : Char} {cs : List Char}

/-- **Where a number can start, the longest is read**, at any place of any text: at a digit, also
behind a minus sign, stands a number token.  It is spelled by the longest number in any form that
the rest of the text begins with, and its form is the only one that has this number. -/
theorem isLongestAt_of_ofText (h : (ofText path text).tokens = front ++ t :: back)
    (hcs : Token.chars (t :: back) = c :: cs)
    (hc : c.isDigit = true ∨ c = '-' ∧ ∃ d ∈ cs.head?, d.isDigit = true) :
    IsLongestAt NumberForm.numbers (c :: cs) t.spelling.toList ∧
      ∃ form : NumberForm, t.kind = .literal (.number form t.spelling) ∧
        ∀ other : NumberForm, t.spelling.toList ∈ other.texts ↔ other = form := by
  obtain ⟨lexeme, hlexeme⟩ := Lexeme.exists_numeral? hc
  have hnext := (Lexeme.next_of_numeral? hlexeme).symm.trans (Token.next_of_ofText h hcs)
  subst hnext
  obtain ⟨hlongest, form, hkind, hform⟩ := Lexeme.isLongestAt_of_numeral? hlexeme
  rw [String.ofList_toList] at hkind
  exact ⟨hlongest, form, hkind, hform⟩

/-- An exponent without digits is none, so the number ends in front of it. -/
theorem isLongestAt_exponentWithoutDigits :
    let front : Token := ⟨.identifier "a", ⟨⟨⟨1, 1⟩, "p"⟩, ⟨⟨1, 2⟩, "p"⟩⟩⟩
    let number : Token := ⟨.literal (.number .hexadecimalInteger "-0x1"),
      ⟨⟨⟨1, 2⟩, "p"⟩, ⟨⟨1, 6⟩, "p"⟩⟩⟩
    let letter : Token := ⟨.identifier "p", ⟨⟨⟨1, 6⟩, "p"⟩, ⟨⟨1, 7⟩, "p"⟩⟩⟩
    let sign : Token := ⟨.operator "+", ⟨⟨⟨1, 7⟩, "p"⟩, ⟨⟨1, 8⟩, "p"⟩⟩⟩
    (ofText "p" "a-0x1p+").tokens = [front] ++ number :: [letter, sign] ∧
      Token.chars [number, letter, sign] = '-' :: "0x1p+".toList ∧
      ('-'.isDigit = true ∨ '-' = '-' ∧ ∃ d ∈ "0x1p+".toList.head?, d.isDigit = true) ∧
      IsLongestAt NumberForm.numbers ('-' :: "0x1p+".toList) number.spelling.toList ∧
      ∃ form : NumberForm, number.kind = .literal (.number form number.spelling) ∧
        ∀ other : NumberForm, number.spelling.toList ∈ other.texts ↔ other = form := by
  intro front number letter sign
  have htokens : (ofText "p" "a-0x1p+").tokens = [front] ++ number :: [letter, sign] := by
    decide +kernel
  have hchars : Token.chars [number, letter, sign] = '-' :: "0x1p+".toList := by decide +kernel
  have hstart : '-'.isDigit = true ∨ '-' = '-' ∧ ∃ d ∈ "0x1p+".toList.head?, d.isDigit = true :=
    .inr ⟨rfl, '0', by decide, by decide⟩
  exact ⟨htokens, hchars, hstart, isLongestAt_of_ofText htokens hchars hstart⟩

end TokenStream

end DeclFront
