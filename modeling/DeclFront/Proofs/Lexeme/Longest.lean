import DeclFront.Lexeme.Word
import Mathlib.Computability.Language

/-!
# Proofs/Lexeme/Longest — numbers and words are read in one way

A munch never goes back, so it could read less than it might, or refuse a text that begins with a
word it knows.  `ReadsLongest` says that it does neither: of the words of a language it reads the
longest that the text begins with.  A sequence does so when what begins a word of the second
language continues no word of the first (`ReadsLongest.seq`), and every form of a number is built in
this way (`readsLongest_numberForm`).

So a text can end behind the word that was read, and one that was refused can end anywhere
(`ReadsLongest.read_truncate`, `ReadsLongest.read_eq_none`); and a character that stands in no word
is as good as the end of the text, whatever follows it (`ReadsLongest.read_append`).
-/

namespace DeclFront.Munch

/-! ## Languages of munches -/

/-- The characters of a class, each as a word. -/
def oneOf (accepts : Char → Bool) : Language Char := {cs | ∃ c, accepts c = true ∧ cs = [c]}

/-- The words over a class of characters. -/
def runsOf (accepts : Char → Bool) : Language Char := {cs | ∀ c ∈ cs, accepts c = true}

/-- Runs of digits. -/
def runs (isDigit : Char → Bool) : Language Char :=
  oneOf isDigit * runsOf fun c => isDigit c || c == '_'

/-- A minus sign or none. -/
def signs : Language Char := oneOf (· == '-') + 1

/-- Zero, the letter of a base and its digits, behind a sign. -/
def basedIntegers (letter : Char) (isDigit : Char → Bool) : Language Char :=
  signs * (oneOf (· == '0') * (oneOf (· == letter) * runs isDigit))

/-- A point and the digits behind it. -/
def fractions (isDigit : Char → Bool) : Language Char := oneOf (· == '.') * runs isDigit

/-- A letter, a sign or none, and decimal digits. -/
def exponents (letters : List Char) : Language Char :=
  oneOf letters.contains * ((oneOf ['+', '-'].contains + 1) * runs Char.isDigit)

end Munch

/-- The numbers that are written in the form. -/
def NumberForm.texts : NumberForm → Language Char
  | binaryInteger => Munch.basedIntegers 'b' isBinaryDigit
  | octalInteger => Munch.basedIntegers 'o' isOctalDigit
  | decimalInteger => Munch.signs * Munch.runs Char.isDigit
  | hexadecimalInteger => Munch.basedIntegers 'x' isHexadecimalDigit
  | decimalFloat =>
    Munch.signs * (Munch.runs Char.isDigit *
      (Munch.fractions Char.isDigit * (Munch.exponents ['e', 'E'] + 1) +
        Munch.exponents ['e', 'E']))
  | hexadecimalFloat =>
    Munch.basedIntegers 'x' isHexadecimalDigit *
      ((Munch.fractions isHexadecimalDigit + 1) * Munch.exponents ['p', 'P'])

/-- The digits of the form. -/
def NumberForm.isDigit : NumberForm → Char → Bool
  | binaryInteger => isBinaryDigit
  | octalInteger => isOctalDigit
  | decimalInteger | decimalFloat => Char.isDigit
  | hexadecimalInteger | hexadecimalFloat => isHexadecimalDigit

/-- The characters besides its digits that can stand in a number of the form. -/
def NumberForm.otherChars : NumberForm → List Char
  | binaryInteger => ['_', '-', '0', 'b']
  | octalInteger => ['_', '-', '0', 'o']
  | decimalInteger => ['_', '-']
  | hexadecimalInteger => ['_', '-', '0', 'x']
  | decimalFloat => ['_', '-', '+', '.', 'e', 'E']
  | hexadecimalFloat => ['_', '-', '+', '.', '0', 'x', 'p', 'P']

/-- The character can stand in a number of the form. -/
def NumberForm.holds (form : NumberForm) (c : Char) : Bool :=
  form.isDigit c || form.otherChars.contains c

/-- Names without the backticks. -/
def Munch.words : Language Char := oneOf isIdentifierHead * runsOf isIdentifierChar

/-- A dollar sign and digits. -/
def Munch.parameters : Language Char := oneOf (· == '$') * runs Char.isDigit

namespace Munch

variable {munch first second : Munch} {L M : Language Char} {accepts : Char → Bool}
  {text front rest word : List Char} {c : Char}

/-! ## What begins a word, and what continues one -/

/-- The words of the language begin with such characters. -/
def BeginsIn (L : Language Char) (P : Char → Prop) : Prop := ∀ c cs, c :: cs ∈ L → P c

/-- No word of the language goes on with the character to another of its words. -/
def StopsAt (L : Language Char) (c : Char) : Prop := ∀ word ∈ L, ∀ cs, word ++ c :: cs ∉ L

/-- The words of the language hold no other characters. -/
def MadeOf (L : Language Char) (accepts : Char → Bool) : Prop :=
  ∀ word ∈ L, ∀ c ∈ word, accepts c = true

theorem nil_notMem_oneOf (accepts : Char → Bool) : [] ∉ oneOf accepts := by
  rintro ⟨c, -, hc⟩
  cases hc

theorem nil_notMem_mul_left (h : [] ∉ L) (M : Language Char) : [] ∉ L * M := by
  rintro ⟨a, ha, b, -, hab⟩
  obtain ⟨rfl, -⟩ := List.append_eq_nil_iff.1 hab
  exact h ha

theorem beginsIn_oneOf (accepts : Char → Bool) : BeginsIn (oneOf accepts) (accepts · = true) := by
  rintro c cs ⟨d, hd, hcs⟩
  rwa [(List.cons.inj hcs).1]

namespace BeginsIn

variable {P Q : Char → Prop}

theorem mono (h : BeginsIn L P) (hPQ : ∀ c, P c → Q c) : BeginsIn L Q :=
  fun c cs hmem => hPQ c (h c cs hmem)

/-- Where the first factor is not empty, it is what a word begins with. -/
theorem mul (hnil : [] ∉ L) (h : BeginsIn L P) (M : Language Char) : BeginsIn (L * M) P := by
  rintro c cs ⟨_ | ⟨d, ds⟩, ha, b, -, hab⟩
  · exact absurd ha hnil
  · obtain ⟨rfl, -⟩ := List.cons.inj hab
    exact h d ds ha

theorem add (hL : BeginsIn L P) (hM : BeginsIn M P) : BeginsIn (L + M) P :=
  fun c cs hmem => hmem.elim (hL c cs) (hM c cs)

/-- The empty word begins with nothing, so it may be added. -/
theorem optional (h : BeginsIn L P) : BeginsIn (L + 1) P :=
  fun c cs hmem => hmem.elim (h c cs) fun hnil => absurd hnil (List.cons_ne_nil c cs)

/-- What may be left out may begin with what follows it. -/
theorem optional_mul (hL : BeginsIn L P) (hM : BeginsIn M P) : BeginsIn ((L + 1) * M) P := by
  rintro c cs ⟨_ | ⟨d, ds⟩, ha, b, hb, hab⟩
  · exact hM c cs (hab ▸ hb)
  · obtain ⟨rfl, -⟩ := List.cons.inj hab
    exact hL.optional d ds ha

end BeginsIn

theorem stopsAt_oneOf (accepts : Char → Bool) (c : Char) : StopsAt (oneOf accepts) c := by
  rintro word ⟨d, -, rfl⟩ cs ⟨e, -, he⟩
  exact absurd (List.cons.inj he).2 (List.cons_ne_nil c cs)

/-- A run is not continued by a character that does not belong to it. -/
theorem stopsAt_runsOf (h : accepts c = false) : StopsAt (runsOf accepts) c := by
  intro word _ cs hmem
  have hc : accepts c = true := hmem c (by simp)
  rw [h] at hc
  cases hc

namespace StopsAt

/-- An optional word is not continued by a character that it neither begins nor goes on with. -/
theorem optional (h : StopsAt L c) (hbegins : BeginsIn L (· ≠ c)) : StopsAt (L + 1) c := by
  rintro word hword cs (hmem | hmem)
  · rcases hword with hword | rfl
    · exact h word hword cs hmem
    · exact hbegins c cs hmem rfl
  · exact absurd hmem (List.append_ne_nil_of_right_ne_nil word (List.cons_ne_nil c cs))

/-- Two words in a row stop where the second does, or also the first if the second may be empty. -/
theorem mul (hbetween : BeginsIn M (StopsAt L)) (hM : StopsAt M c) (hL : [] ∈ M → StopsAt L c) :
    StopsAt (L * M) c := by
  rintro _ ⟨a, ha, b, hb, rfl⟩ cs ⟨a', ha', b', hb', heq⟩
  -- Both split at the same place, since what begins a second word continues no shorter first one.
  rw [List.append_assoc] at heq
  rcases List.append_eq_append_iff.1 heq with ⟨more, rfl, hmore⟩ | ⟨more, rfl, hmore⟩
  · rcases more with _ | ⟨d, more⟩
    · rw [List.nil_append] at hmore
      exact hM b hb cs (hmore ▸ hb')
    · rw [hmore] at hb'
      exact hbetween d _ hb' a' ha' more ha
  · rcases more with _ | ⟨d, more⟩
    · rw [List.nil_append] at hmore
      exact hM b hb cs (hmore ▸ hb')
    · rcases b with _ | ⟨e, b⟩
      · obtain ⟨rfl, -⟩ := List.cons.inj hmore
        exact hL hb a ha more ha'
      · obtain ⟨rfl, -⟩ := List.cons.inj hmore
        exact hbetween e b hb a ha more ha'

/-- A character in front changes nothing about how words end. -/
theorem oneOf_mul (h : StopsAt M c) (accepts : Char → Bool) : StopsAt (oneOf accepts * M) c :=
  mul (fun d _ _ => stopsAt_oneOf accepts d) h fun _ => stopsAt_oneOf accepts c

end StopsAt

theorem madeOf_oneOf {within : Char → Bool} (h : ∀ c, within c = true → accepts c = true) :
    MadeOf (oneOf within) accepts := by
  rintro _ ⟨c, hc, rfl⟩
  exact List.forall_mem_singleton.2 (h c hc)

theorem madeOf_runsOf {within : Char → Bool} (h : ∀ c, within c = true → accepts c = true) :
    MadeOf (runsOf within) accepts :=
  fun _ hword c hc => h c (hword c hc)

namespace MadeOf

theorem mono {within : Char → Bool} (h : MadeOf L within)
    (hwithin : ∀ c, within c = true → accepts c = true) : MadeOf L accepts :=
  fun word hword c hc => hwithin c (h word hword c hc)

theorem mul (hL : MadeOf L accepts) (hM : MadeOf M accepts) : MadeOf (L * M) accepts := by
  rintro _ ⟨a, ha, b, hb, rfl⟩
  exact List.forall_mem_append.2 ⟨hL a ha, hM b hb⟩

theorem add (hL : MadeOf L accepts) (hM : MadeOf M accepts) : MadeOf (L + M) accepts :=
  fun word hword => hword.elim (hL word) (hM word)

theorem optional (h : MadeOf L accepts) : MadeOf (L + 1) accepts := by
  rintro _ (hword | rfl)
  · exact h _ hword
  · exact List.forall_mem_nil _

/-- A character that words are not made of is in none of them. -/
theorem notMem (h : MadeOf L accepts) (hc : accepts c = false) (hword : word ∈ L) : c ∉ word := by
  intro hmem
  rw [h word hword c hmem] at hc
  cases hc

end MadeOf

/-! ## The longest word at the front of a text -/

/-- Of the words of the language the munch reads the longest that the text begins with, and it
refuses no text that begins with one. -/
structure ReadsLongest (munch : Munch) (L : Language Char) : Prop where
  mem : ∀ {text front rest}, munch.read text = some (front, rest) → front ∈ L
  longest : ∀ {text front rest word}, munch.read text = some (front, rest) →
    word ∈ L → word <+: text → word <+: front
  exists_read : ∀ {text word}, word ∈ L → word <+: text →
    ∃ front rest, munch.read text = some (front, rest)

theorem prefix_of_read (h : munch.read text = some (front, rest)) : front <+: text :=
  ⟨rest, munch.append_of_read h⟩

theorem read_one_eq_some_iff : (one accepts).read text = some (front, rest) ↔
    ∃ c, accepts c = true ∧ front = [c] ∧ text = c :: rest := by
  constructor
  · intro h
    rcases text with _ | ⟨c, cs⟩
    · cases h
    · cases hc : accepts c with
      | false => simp [one, hc] at h
      | true =>
        simp only [one, hc, if_true] at h
        cases h
        exact ⟨c, hc, rfl, rfl⟩
  · rintro ⟨c, hc, rfl, rfl⟩
    simp [one, hc]

theorem readsLongest_one (accepts : Char → Bool) : (one accepts).ReadsLongest (oneOf accepts) where
  mem h := by
    obtain ⟨c, hc, rfl, -⟩ := read_one_eq_some_iff.1 h
    exact ⟨c, hc, rfl⟩
  longest {text front rest word} h := by
    rintro ⟨d, -, rfl⟩ hstart
    obtain ⟨c, -, rfl, rfl⟩ := read_one_eq_some_iff.1 h
    rw [(List.cons_prefix_cons.1 hstart).1]
  exists_read {text word} := by
    rintro ⟨c, hc, rfl⟩ ⟨rest, rfl⟩
    exact ⟨[c], rest, read_one_eq_some_iff.2 ⟨c, hc, rfl, rfl⟩⟩

/-- A run is read as far as it goes. -/
theorem readsLongest_many (accepts : Char → Bool) :
    (many accepts).ReadsLongest (runsOf accepts) where
  mem h := by
    obtain ⟨rfl, -⟩ := Prod.mk.inj (Option.some.inj h)
    exact List.all_eq_true.1 List.all_takeWhile
  longest {text front rest word} h hword hstart := by
    obtain ⟨rfl, -⟩ := Prod.mk.inj (Option.some.inj h)
    obtain ⟨rest, rfl⟩ := hstart
    rw [List.takeWhile_append_of_pos hword]
    exact List.prefix_append word _
  exists_read _ _ := ⟨_, _, rfl⟩

/-- A sequence reads its second part from what the first leaves. -/
theorem read_seq_eq_some_iff : (first.seq second).read text = some (front, rest) ↔
    ∃ a middle b, first.read text = some (a, middle) ∧ second.read middle = some (b, rest) ∧
      a ++ b = front := by
  simp only [Munch.seq]
  rcases first.read text with _ | ⟨a, middle⟩
  · simp
  · rcases hsecond : second.read middle with _ | ⟨b, rest'⟩ <;> simp [hsecond, and_comm]

theorem read_optional (munch : Munch) (text : List Char) :
    munch.optional.read text = (munch.read text).or (some ([], text)) := rfl

theorem read_orElse (first second : Munch) (text : List Char) :
    (first.orElse second).read text = (first.read text).or (second.read text) := rfl

/-- In front of a character that it does not hold, a word lies in the text before it. -/
theorem prefix_of_notMem (hc : c ∉ word) {behind : List Char} (h : word <+: front ++ c :: behind) :
    word <+: front := by
  rcases List.prefix_or_prefix_of_prefix h (List.prefix_append front _) with h | ⟨more, rfl⟩
  · exact h
  · rcases more with _ | ⟨d, more⟩
    · rw [List.append_nil]
    · rw [List.prefix_append_right_inj, List.cons_prefix_cons] at h
      exact absurd (by simp [h.1]) hc

/-- No text begins with words of two languages that begin with other characters. -/
theorem not_prefix_of_beginsIn {P : Char → Prop} (hL : BeginsIn L P) (hM : BeginsIn M (¬ P ·))
    (hnilL : [] ∉ L) (hnilM : [] ∉ M) : ∀ text, ∀ v ∈ L, v <+: text → ∀ w ∈ M, ¬ w <+: text := by
  rintro text v hv ⟨rest, rfl⟩ w hw hstart
  rcases v with _ | ⟨c, cs⟩
  · exact hnilL hv
  rcases w with _ | ⟨d, ds⟩
  · exact hnilM hw
  obtain ⟨rfl, -⟩ := List.cons_prefix_cons.1 hstart
  exact hM d ds hw (hL d cs hv)

namespace ReadsLongest

/-- Of two words in a row the first is what the first munch reads, unless the second is empty. -/
theorem split (h : first.ReadsLongest L) (hbetween : BeginsIn M (StopsAt L)) {a b middle : List Char}
    (ha : a ∈ L) (hb : b ∈ M) (hstart : a ++ b <+: text)
    (hread : first.read text = some (front, middle)) :
    (a <+: front ∧ b = []) ∨ (a = front ∧ b <+: middle) := by
  obtain ⟨more, rfl⟩ := h.longest hread ha ((List.prefix_append a b).trans hstart)
  rw [← first.append_of_read hread, List.append_assoc, List.prefix_append_right_inj] at hstart
  rcases more with _ | ⟨d, more⟩
  · exact .inr ⟨(List.append_nil a).symm, hstart⟩
  · rcases b with _ | ⟨c, cs⟩
    · exact .inl ⟨List.prefix_append a _, rfl⟩
    · obtain ⟨rfl, -⟩ := List.cons_prefix_cons.1 hstart
      exact absurd (h.mem hread) (hbetween c cs hb a ha more)

/-- **A sequence reads the longest word in two parts**, when what begins a second part continues no
first one. -/
theorem seq (hfirst : first.ReadsLongest L) (hsecond : second.ReadsLongest M)
    (hbetween : BeginsIn M (StopsAt L)) : (first.seq second).ReadsLongest (L * M) where
  mem h := by
    obtain ⟨a, middle, b, ha, hb, rfl⟩ := read_seq_eq_some_iff.1 h
    exact Language.append_mem_mul (hfirst.mem ha) (hsecond.mem hb)
  longest {text front rest word} h hword hstart := by
    obtain ⟨a, ha, b, hb, rfl⟩ := Language.mem_mul.1 hword
    obtain ⟨front, middle, back, hfront, hback, rfl⟩ := read_seq_eq_some_iff.1 h
    rcases hfirst.split hbetween ha hb hstart hfront with ⟨hshort, rfl⟩ | ⟨rfl, hrest⟩
    · rw [List.append_nil]
      exact hshort.trans (List.prefix_append front back)
    · exact (List.prefix_append_right_inj a).2 (hsecond.longest hback hb hrest)
  exists_read {text word} hword hstart := by
    obtain ⟨a, ha, b, hb, rfl⟩ := Language.mem_mul.1 hword
    obtain ⟨front, middle, hfront⟩ := hfirst.exists_read ha ((List.prefix_append a b).trans hstart)
    have hmiddle : b <+: middle := by
      rcases hfirst.split hbetween ha hb hstart hfront with ⟨-, rfl⟩ | ⟨-, hrest⟩
      · exact List.nil_prefix
      · exact hrest
    obtain ⟨back, rest, hback⟩ := hsecond.exists_read hb hmiddle
    exact ⟨front ++ back, rest, read_seq_eq_some_iff.2 ⟨_, _, _, hfront, hback, rfl⟩⟩

/-- **An optional part is read where it can be.** -/
theorem optional (h : munch.ReadsLongest L) : munch.optional.ReadsLongest (L + 1) where
  mem {text front rest} hread := by
    rw [read_optional] at hread
    rcases hmunch : munch.read text with _ | ⟨a, middle⟩ <;> rw [hmunch] at hread <;> cases hread
    · exact .inr rfl
    · exact .inl (h.mem hmunch)
  longest {text front rest word} hread hword hstart := by
    rcases hword with hword | rfl
    · obtain ⟨a, middle, hmunch⟩ := h.exists_read hword hstart
      rw [read_optional, hmunch] at hread
      cases hread
      exact h.longest hmunch hword hstart
    · exact List.nil_prefix
  exists_read {text word} _ _ := by
    rw [read_optional]
    rcases munch.read text with _ | ⟨a, middle⟩
    · exact ⟨[], text, rfl⟩
    · exact ⟨a, middle, rfl⟩

/-- A choice reads the longest word of both languages, when no text begins with one of each. -/
theorem orElse (hfirst : first.ReadsLongest L) (hsecond : second.ReadsLongest M)
    (hdisjoint : ∀ text, ∀ v ∈ L, v <+: text → ∀ w ∈ M, ¬ w <+: text) :
    (first.orElse second).ReadsLongest (L + M) where
  mem {text front rest} hread := by
    rw [read_orElse] at hread
    rcases hmunch : first.read text with _ | ⟨a, middle⟩ <;> rw [hmunch] at hread
    · exact .inr (hsecond.mem hread)
    · cases hread
      exact .inl (hfirst.mem hmunch)
  longest {text front rest word} hread hword hstart := by
    rw [read_orElse] at hread
    rcases hword with hword | hword
    · obtain ⟨a, middle, hmunch⟩ := hfirst.exists_read hword hstart
      rw [hmunch] at hread
      cases hread
      exact hfirst.longest hmunch hword hstart
    · rcases hmunch : first.read text with _ | ⟨a, middle⟩ <;> rw [hmunch] at hread
      · exact hsecond.longest hread hword hstart
      · exact absurd hstart
          (hdisjoint text a (hfirst.mem hmunch) (prefix_of_read hmunch) word hword)
  exists_read {text word} hword hstart := by
    rw [read_orElse]
    rcases hword with hword | hword
    · obtain ⟨a, middle, hmunch⟩ := hfirst.exists_read hword hstart
      exact ⟨a, middle, by rw [hmunch, Option.some_or]⟩
    · rcases first.read text with _ | ⟨a, middle⟩
      · exact hsecond.exists_read hword hstart
      · exact ⟨a, middle, rfl⟩

/-- What is read, told without reading. -/
theorem read_eq_some_iff (h : munch.ReadsLongest L) : munch.read text = some (front, rest) ↔
    front ∈ L ∧ front ++ rest = text ∧ ∀ word ∈ L, word <+: text → word <+: front := by
  constructor
  · exact fun hread => ⟨h.mem hread, munch.append_of_read hread, fun _ => h.longest hread⟩
  · rintro ⟨hfront, rfl, hlongest⟩
    have hstart := List.prefix_append front rest
    obtain ⟨word, rest', hread⟩ := h.exists_read hfront hstart
    have hshort := hlongest word (h.mem hread) (prefix_of_read hread)
    obtain rfl := hshort.eq_of_length_le (h.longest hread hfront hstart).length_le
    rw [hread, List.append_cancel_left (munch.append_of_read hread)]

/-- Nothing is read just where no word of the language stands. -/
theorem read_eq_none_iff (h : munch.ReadsLongest L) :
    munch.read text = none ↔ ∀ word ∈ L, ¬ word <+: text := by
  constructor
  · intro hread word hword hstart
    obtain ⟨front, rest, hfound⟩ := h.exists_read hword hstart
    rw [hread] at hfound
    cases hfound
  · intro hnone
    rcases hread : munch.read text with _ | ⟨front, rest⟩
    · rfl
    · exact absurd (prefix_of_read hread) (hnone front (h.mem hread))

/-! ## The end of a text -/

/-- **What was read is read again** when the text ends behind it. -/
theorem read_truncate (h : munch.ReadsLongest L)
    (hread : munch.read (front ++ rest) = some (front, rest)) :
    munch.read front = some (front, []) := by
  obtain ⟨hfront, -, -⟩ := h.read_eq_some_iff.1 hread
  exact h.read_eq_some_iff.2 ⟨hfront, List.append_nil front, fun _ _ hstart => hstart⟩

/-- **What was refused is refused again** when the text ends earlier. -/
theorem read_eq_none (h : munch.ReadsLongest L) (hread : munch.read (front ++ rest) = none) :
    munch.read front = none :=
  h.read_eq_none_iff.2 fun word hword hstart =>
    h.read_eq_none_iff.1 hread word hword (hstart.trans (List.prefix_append front rest))

/-- **A character that stands in no word is as good as the end of the text.** -/
theorem read_append (h : munch.ReadsLongest L) (hL : MadeOf L accepts) (hc : accepts c = false)
    (front behind : List Char) : munch.read (front ++ c :: behind) =
      (munch.read front).map fun (chars, rest) => (chars, rest ++ c :: behind) := by
  have hshort {word : List Char} (hword : word ∈ L) (hstart : word <+: front ++ c :: behind) :
      word <+: front := prefix_of_notMem (hL.notMem hc hword) hstart
  rcases hread : munch.read front with _ | ⟨chars, rest⟩
  · exact h.read_eq_none_iff.2 fun word hword hstart =>
      h.read_eq_none_iff.1 hread word hword (hshort hword hstart)
  · obtain ⟨hchars, rfl, hlongest⟩ := h.read_eq_some_iff.1 hread
    exact h.read_eq_some_iff.2 ⟨hchars, (List.append_assoc _ _ _).symm,
      fun word hword hstart => hlongest word hword (hshort hword hstart)⟩

end ReadsLongest

/-! ## Numbers, words and parameters -/

/-- One character in front of what is read whole is read whole too. -/
theorem ReadsLongest.after_one (h : munch.ReadsLongest L) (accepts : Char → Bool) :
    ((one accepts).seq munch).ReadsLongest (oneOf accepts * L) :=
  (readsLongest_one accepts).seq h fun c _ _ => stopsAt_oneOf accepts c

theorem readsLongest_word : Munch.word.ReadsLongest words := (readsLongest_many _).after_one _

/-- A run of digits has underscores from its second character on. -/
theorem readsLongest_run (isDigit : Char → Bool) : (run isDigit).ReadsLongest (runs isDigit) :=
  (readsLongest_many _).after_one _

theorem readsLongest_parameter :
    ((char '$').seq (run Char.isDigit)).ReadsLongest parameters := (readsLongest_run _).after_one _

theorem nil_notMem_runs (isDigit : Char → Bool) : [] ∉ runs isDigit :=
  nil_notMem_mul_left (nil_notMem_oneOf isDigit) _

/-- A run of digits is not continued by what is neither digit nor underscore. -/
theorem stopsAt_runs {isDigit : Char → Bool} (h : isDigit c = false) (h' : c ≠ '_') :
    StopsAt (runs isDigit) c :=
  (stopsAt_runsOf (by simp [h, h'])).oneOf_mul isDigit

theorem beginsIn_runs (isDigit : Char → Bool) : BeginsIn (runs isDigit) (isDigit · = true) :=
  (beginsIn_oneOf isDigit).mul (nil_notMem_oneOf isDigit) _

/-- One character or none stops at any other. -/
theorem stopsAt_oneOf_optional (h : accepts c = false) : StopsAt (oneOf accepts + 1) c :=
  (stopsAt_oneOf accepts c).optional <| (beginsIn_oneOf accepts).mono fun d hd => by
    rintro rfl
    rw [h] at hd
    cases hd

theorem stopsAt_signs (h : c ≠ '-') : StopsAt signs c := stopsAt_oneOf_optional (beq_false_of_ne h)

/-- A sign in front is read whole, since the words behind it begin with none. -/
theorem ReadsLongest.after_sign (h : munch.ReadsLongest L) (hL : BeginsIn L (· ≠ '-')) :
    (sign.seq munch).ReadsLongest (signs * L) :=
  (readsLongest_one _).optional.seq h (hL.mono fun _ => stopsAt_signs)

theorem beginsIn_zero (L : Language Char) : BeginsIn (oneOf (· == '0') * L) (· ≠ '-') :=
  ((beginsIn_oneOf _).mul (nil_notMem_oneOf _) L).mono fun c hc => by
    rw [beq_iff_eq] at hc
    subst hc
    decide

theorem readsLongest_based (letter : Char) (isDigit : Char → Bool) :
    (based letter isDigit).ReadsLongest (basedIntegers letter isDigit) :=
  (((readsLongest_run isDigit).after_one _).after_one _).after_sign (beginsIn_zero _)

theorem stopsAt_basedIntegers {letter : Char} {isDigit : Char → Bool} (h : isDigit c = false)
    (h' : c ≠ '_') : StopsAt (basedIntegers letter isDigit) c :=
  .mul ((beginsIn_zero _).mono fun _ => stopsAt_signs) (((stopsAt_runs h h').oneOf_mul _).oneOf_mul _)
    fun hnil => absurd hnil (nil_notMem_mul_left (nil_notMem_oneOf _) _)

theorem readsLongest_fraction (isDigit : Char → Bool) :
    (fraction isDigit).ReadsLongest (fractions isDigit) :=
  (readsLongest_run isDigit).after_one _

theorem nil_notMem_fractions (isDigit : Char → Bool) : [] ∉ fractions isDigit :=
  nil_notMem_mul_left (nil_notMem_oneOf _) _

theorem beginsIn_fractions (isDigit : Char → Bool) : BeginsIn (fractions isDigit) (· = '.') :=
  ((beginsIn_oneOf _).mul (nil_notMem_oneOf _) _).mono fun _ => eq_of_beq

/-- A fraction is not continued by what is neither digit nor underscore. -/
theorem stopsAt_fractions {isDigit : Char → Bool} (h : isDigit c = false) (h' : c ≠ '_') :
    StopsAt (fractions isDigit) c :=
  (stopsAt_runs h h').oneOf_mul _

/-- An exponent is read whole, with its sign or without. -/
theorem readsLongest_exponent (letters : List Char) :
    (exponent letters).ReadsLongest (exponents letters) := by
  have hsign {c : Char} (hc : c.isDigit = true) : ['+', '-'].contains c = false := by
    simp only [List.contains_cons, List.contains_nil, Bool.or_false, Bool.or_eq_false_iff,
      beq_eq_false_iff_ne]
    constructor <;> (rintro rfl; cases hc)
  exact ((readsLongest_one _).optional.seq (readsLongest_run _)
    ((beginsIn_runs _).mono fun _ hc => stopsAt_oneOf_optional (hsign hc))).after_one _

theorem nil_notMem_exponents (letters : List Char) : [] ∉ exponents letters :=
  nil_notMem_mul_left (nil_notMem_oneOf _) _

/-- An exponent begins with one of its letters. -/
theorem beginsIn_exponents (letters : List Char) : BeginsIn (exponents letters) (· ∈ letters) :=
  ((beginsIn_oneOf _).mul (nil_notMem_oneOf _) _).mono fun _ => List.contains_iff_mem.1

/-- **A number is read to its end**, in whichever form. -/
theorem readsLongest_numberForm (form : NumberForm) : form.munch.ReadsLongest form.texts := by
  have hminus {c : Char} (hc : c.isDigit = true) : c ≠ '-' := by
    rintro rfl
    cases hc
  cases form with
  | binaryInteger => exact readsLongest_based _ _
  | octalInteger => exact readsLongest_based _ _
  | decimalInteger =>
    exact (readsLongest_run _).after_sign ((beginsIn_runs _).mono fun _ => hminus)
  | hexadecimalInteger => exact readsLongest_based _ _
  | decimalFloat =>
    have hexponent : BeginsIn (exponents ['e', 'E'])
        fun c => c ≠ '.' ∧ c.isDigit = false ∧ c ≠ '_' :=
      (beginsIn_exponents _).mono
        (List.forall_mem_cons.2 ⟨by decide, List.forall_mem_singleton.2 (by decide)⟩)
    have hpoint := (beginsIn_fractions Char.isDigit).mul (nil_notMem_fractions _)
      (exponents ['e', 'E'] + 1)
    have hfraction := (readsLongest_fraction Char.isDigit).seq
      (readsLongest_exponent ['e', 'E']).optional
      (hexponent.optional.mono fun c hc => stopsAt_fractions hc.2.1 hc.2.2)
    have htail := hfraction.orElse (readsLongest_exponent ['e', 'E'])
      (not_prefix_of_beginsIn hpoint (hexponent.mono fun c hc => hc.1)
        (nil_notMem_mul_left (nil_notMem_fractions _) _) (nil_notMem_exponents _))
    have hbetween : BeginsIn (fractions Char.isDigit * (exponents ['e', 'E'] + 1) +
        exponents ['e', 'E']) (StopsAt (runs Char.isDigit)) :=
      (hpoint.mono fun c hc => hc ▸ stopsAt_runs rfl (by decide)).add
        (hexponent.mono fun c hc => stopsAt_runs hc.2.1 hc.2.2)
    exact ((readsLongest_run _).seq htail hbetween).after_sign
      (((beginsIn_runs _).mul (nil_notMem_runs _) _).mono fun _ => hminus)
  | hexadecimalFloat =>
    have hexponent : BeginsIn (exponents ['p', 'P'])
        fun c => c ≠ '.' ∧ isHexadecimalDigit c = false ∧ c ≠ '_' :=
      (beginsIn_exponents _).mono
        (List.forall_mem_cons.2 ⟨by decide, List.forall_mem_singleton.2 (by decide)⟩)
    have hpoint := beginsIn_fractions isHexadecimalDigit
    have htail := (readsLongest_fraction isHexadecimalDigit).optional.seq
      (readsLongest_exponent ['p', 'P']) (hexponent.mono fun c hc =>
        (stopsAt_fractions hc.2.1 hc.2.2).optional (hpoint.mono fun d hd => hd ▸ hc.1.symm))
    have hbetween : BeginsIn ((fractions isHexadecimalDigit + 1) * exponents ['p', 'P'])
        (StopsAt (basedIntegers 'x' isHexadecimalDigit)) :=
      (hpoint.mono fun c hc => hc ▸ stopsAt_basedIntegers rfl (by decide)).optional_mul
        (hexponent.mono fun c hc => stopsAt_basedIntegers hc.2.1 hc.2.2)
    exact (readsLongest_based _ _).seq htail hbetween

/-! ## The characters of numbers and words -/

/-- The character can stand in a number. -/
def isNumeralChar (c : Char) : Bool :=
  c.isDigit || isBinaryDigit c || isOctalDigit c || isHexadecimalDigit c ||
    ['_', '-', '+', '.', 'b', 'o', 'x', 'e', 'E', 'p', 'P'].contains c

theorem madeOf_words : MadeOf words isIdentifierChar :=
  (madeOf_oneOf fun _ => isIdentifierChar_of_isIdentifierHead).mul (madeOf_runsOf fun _ => id)

theorem madeOf_runs {isDigit : Char → Bool} (h : ∀ c, isDigit c = true → accepts c = true)
    (h' : accepts '_' = true) : MadeOf (runs isDigit) accepts :=
  (madeOf_oneOf h).mul <| madeOf_runsOf fun c hc => by
    rcases Bool.or_eq_true_iff.1 hc with hc | hc
    · exact h c hc
    · exact beq_iff_eq.1 hc ▸ h'

theorem madeOf_char {d : Char} (h : accepts d = true) : MadeOf (oneOf (· == d)) accepts :=
  madeOf_oneOf fun _ hc => beq_iff_eq.1 hc ▸ h

theorem madeOf_contains {letters : List Char} (h : letters.all accepts = true) :
    MadeOf (oneOf letters.contains) accepts :=
  madeOf_oneOf fun c hc => List.all_eq_true.1 h c (List.contains_iff_mem.1 hc)

theorem madeOf_parameters : MadeOf parameters fun c => c == '$' || isNumeralChar c :=
  (madeOf_char (by decide)).mul (madeOf_runs (fun c hc => by simp [isNumeralChar, hc]) (by decide))

/-- A number holds nothing but the digits of its form and the signs and letters that it has. -/
theorem madeOf_holds (form : NumberForm) : MadeOf form.texts form.holds := by
  have digits {isDigit : Char → Bool} (h : ∀ c, isDigit c = true → form.holds c = true)
      (h' : form.holds '_' = true) : MadeOf (runs isDigit) form.holds := madeOf_runs h h'
  have own : ∀ c, form.isDigit c = true → form.holds c = true := fun c hc => by
    rw [NumberForm.holds, hc, Bool.true_or]
  have sign (h : form.holds '-' = true) : MadeOf signs form.holds := (madeOf_char h).optional
  have based {letter : Char} {isDigit : Char → Bool}
      (h : ['-', '0', letter].all form.holds = true) (hdigits : MadeOf (runs isDigit) form.holds) :
      MadeOf (basedIntegers letter isDigit) form.holds := by
    simp only [List.all_cons, List.all_nil, Bool.and_eq_true] at h
    exact (sign h.1).mul ((madeOf_char h.2.1).mul ((madeOf_char h.2.2.1).mul hdigits))
  have exponent {letters : List Char} (h : (['+', '-'] ++ letters).all form.holds = true)
      (hdigits : MadeOf (runs Char.isDigit) form.holds) :
      MadeOf (exponents letters) form.holds := by
    rw [List.all_append, Bool.and_eq_true] at h
    exact (madeOf_contains h.2).mul ((madeOf_contains h.1).optional.mul hdigits)
  have fraction {isDigit : Char → Bool} (h : form.holds '.' = true)
      (hdigits : MadeOf (runs isDigit) form.holds) : MadeOf (fractions isDigit) form.holds :=
    (madeOf_char h).mul hdigits
  cases form with
  | binaryInteger => exact based (by decide) (digits own (by decide))
  | octalInteger => exact based (by decide) (digits own (by decide))
  | decimalInteger => exact (sign (by decide)).mul (digits own (by decide))
  | hexadecimalInteger => exact based (by decide) (digits own (by decide))
  | decimalFloat =>
    have decimal := digits own (by decide)
    exact (sign (by decide)).mul (decimal.mul
      (((fraction (by decide) decimal).mul (exponent (by decide) decimal).optional).add
        (exponent (by decide) decimal)))
  | hexadecimalFloat =>
    have hexadecimal := digits own (by decide)
    have decimal := digits (fun c (hc : c.isDigit = true) =>
      own c (by simp [NumberForm.isDigit, isHexadecimalDigit, hc])) (by decide)
    exact (based (by decide) hexadecimal).mul
      ((fraction (by decide) hexadecimal).optional.mul (exponent (by decide) decimal))

/-- **Numbers of every form are made of the characters of numerals.** -/
theorem madeOf_texts (form : NumberForm) : MadeOf form.texts isNumeralChar := by
  refine (madeOf_holds form).mono fun c hc => ?_
  rcases Bool.or_eq_true_iff.1 hc with hdigit | hother
  · cases form <;> simp_all [NumberForm.isDigit, isNumeralChar]
  · have hothers : form.otherChars.all isNumeralChar = true := by cases form <;> decide
    exact List.all_eq_true.1 hothers c (List.contains_iff_mem.1 hother)

end DeclFront.Munch
