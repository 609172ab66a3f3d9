import DeclFront.Proofs.Position
import DeclFront.TokenStream
import Mathlib.Data.List.Chain

/-!
# Proofs/Tiling — the tokens of a text lie side by side over it

Reading a text can be taken up at any boundary between two tokens (`ofText_append`): what was read
so far is spelled by the tokens before it, and the tokens behind it are those of the rest, read from
the position reached.  All that `TokenStream.Tiles` asks of a token stream is read off there, one
token at a time.
-/

namespace DeclFront

namespace Token

/-- The characters that some tokens spell. -/
def chars (tokens : List Token) : List Char := tokens.flatMap (·.spelling.toList)

@[simp] theorem chars_nil : chars [] = [] := rfl

@[simp] theorem chars_cons (t : Token) (tokens : List Token) :
    chars (t :: tokens) = t.spelling.toList ++ chars tokens := rfl

@[simp] theorem chars_append (front back : List Token) :
    chars (front ++ back) = chars front ++ chars back := List.flatMap_append

variable {path : String} {p : Position} {text : List Char}

@[simp] theorem ofText_nil (path : String) (p : Position) : ofText path p [] = [] := by
  rw [ofText]

/-- **The tokens spell the text.** -/
theorem chars_ofText (path : String) (p : Position) (text : List Char) :
    chars (ofText path p text) = text := flatMap_spelling_ofText path p text

/-- **Reading can be taken up at any token boundary** — from the position reached there, in the
characters left there. -/
theorem ofText_append {front back : List Token} (h : ofText path p text = front ++ back) :
    back = ofText path (p.pastAll (chars front) (chars back)) (chars back) := by
  induction front generalizing p text with
  | nil =>
    obtain rfl : ofText path p text = back := h
    rw [chars_ofText]
    rfl
  | cons t front ih =>
    cases text with
    | nil => simp at h
    | cons c cs =>
      rw [ofText, List.cons_append] at h
      obtain ⟨rfl, hrest⟩ := List.cons.inj h
      have hbegins := Lexeme.begins_next c cs
      have hchars : chars front ++ chars back = (Lexeme.next c cs).rest := by
        rw [← chars_append, ← hrest, chars_ofText]
      have hspelling : (Lexeme.next c cs).kind.spelling.toList = (Lexeme.next c cs).chars :=
        hbegins.spelling_eq
      rw [chars_cons, spelling, hspelling, Position.pastAll_append, hchars]
      exact ih hrest

/-- The first token read is the lexeme at the front, from the start to the position behind it. -/
theorem ofText_eq_cons {t : Token} {back : List Token} (h : ofText path p text = t :: back) :
    t.spelling ≠ "" ∧
      t.range = ⟨⟨p, path⟩, ⟨p.pastAll t.spelling.toList (chars back), path⟩⟩ := by
  cases text with
  | nil => simp at h
  | cons c cs =>
    rw [ofText] at h
    obtain ⟨rfl, hrest⟩ := List.cons.inj h
    have hbegins := Lexeme.begins_next c cs
    rw [← hrest, chars_ofText, spelling, hbegins.spelling_eq]
    refine ⟨fun hempty => hbegins.chars_ne_nil ?_, rfl⟩
    rw [← hbegins.spelling_eq, hempty]
    rfl

/-- A token is the lexeme at the front of the text that starts with it. -/
theorem next_of_ofText {front back : List Token} {t : Token} {c : Char} {cs : List Char}
    (h : ofText path p text = front ++ t :: back) (hc : chars (t :: back) = c :: cs) :
    Lexeme.next c cs = ⟨t.kind, t.spelling.toList, chars back⟩ := by
  have hback := ofText_append h
  rw [hc, ofText] at hback
  obtain ⟨rfl, hrest⟩ := List.cons.inj hback
  have hbegins := Lexeme.begins_next c cs
  rw [hrest, chars_ofText, spelling, hbegins.spelling_eq]

/-- **A token stands between the text in front of it and the text behind it**: its range runs from
the position that the one reaches to the position behind its own characters. -/
theorem range_of_ofText_append {front back : List Token} {t : Token}
    (h : ofText path p text = front ++ t :: back) :
    t.spelling ≠ "" ∧
      t.range = ⟨⟨p.pastAll (chars front) (t.spelling.toList ++ chars back), path⟩,
        ⟨p.pastAll (chars front ++ t.spelling.toList) (chars back), path⟩⟩ := by
  obtain ⟨hne, hrange⟩ := ofText_eq_cons (ofText_append h).symm
  rw [Position.pastAll_append]
  exact ⟨hne, hrange⟩

/-- A token is what is read at its first character. -/
theorem exists_next_of_ofText {front back : List Token} {t : Token}
    (h : ofText path p text = front ++ t :: back) :
    ∃ c cs, chars (t :: back) = c :: cs ∧ t.spelling.toList.head? = some c ∧
      Lexeme.next c cs = ⟨t.kind, t.spelling.toList, chars back⟩ := by
  have hspelling : t.spelling.toList ≠ [] := fun hnil =>
    (range_of_ofText_append h).1 (String.toList_eq_nil_iff.1 hnil)
  obtain ⟨c, rest, hrest⟩ := List.exists_cons_of_ne_nil hspelling
  have hchars : chars (t :: back) = c :: (rest ++ chars back) := by
    rw [chars_cons, hrest, List.cons_append]
  exact ⟨c, _, hchars, by rw [hrest, List.head?_cons], next_of_ofText h hchars⟩

/-- Every token spells something. -/
theorem spelling_ne_of_mem_ofText {t : Token} (ht : t ∈ ofText path p text) : t.spelling ≠ "" := by
  obtain ⟨front, back, h⟩ := List.append_of_mem ht
  exact (range_of_ofText_append h).1

/-- A token further on starts and stops further on. -/
theorem range_le_range_of_ofText {front middle back : List Token} {t u : Token}
    (h : ofText path p text = front ++ t :: (middle ++ u :: back)) :
    t.range.start.toPosition ≤ u.range.start.toPosition ∧
      t.range.stop.toPosition ≤ u.range.stop.toPosition := by
  have hu : ofText path p text = (front ++ t :: middle) ++ u :: back := by rw [h]; simp
  rw [(range_of_ofText_append h).2, (range_of_ofText_append hu).2]
  simp only [chars_append, chars_cons, List.append_assoc]
  constructor
  · rw [Position.pastAll_append p (chars front)]
    simp only [List.append_assoc]
    exact Position.le_pastAll _ _ _
  · rw [← List.append_assoc, ← List.append_assoc, Position.pastAll_append p (chars front ++ _),
      List.append_assoc]
    exact Position.le_pastAll _ _ _

/-! ### One behind another -/

/-- No token starts before the place where lexing does. -/
theorem le_start_of_mem_ofText {t : Token} (ht : t ∈ ofText path p text) :
    p ≤ t.range.start.toPosition := by
  obtain ⟨front, back, h⟩ := List.append_of_mem ht
  rw [(range_of_ofText_append h).2]
  exact Position.le_pastAll _ _ _

/-- Every token ends behind its start. -/
theorem start_lt_stop_of_mem_ofText {t : Token} (ht : t ∈ ofText path p text) :
    t.range.start.toPosition < t.range.stop.toPosition := by
  fun_induction ofText path p text with
  | case1 => cases ht
  | case2 p c cs lexeme stop ih =>
    rcases List.mem_cons.1 ht with rfl | ht
    · exact Position.lt_pastAll p (Lexeme.begins_next c cs).chars_ne_nil _
    · exact ih ht

/-- **No token starts before the ones in front of it have ended.** -/
theorem pairwise_precedes_ofText (path : String) (p : Position) (text : List Char) :
    (ofText path p text).Pairwise fun t u => t.range.Precedes u.range := by
  fun_induction ofText path p text with
  | case1 => exact List.Pairwise.nil
  | case2 p c cs lexeme stop ih =>
    exact List.pairwise_cons.2 ⟨fun u hu => le_start_of_mem_ofText hu, ih⟩

end Token

namespace TokenStream

theorem chars_tokens_ofText (path text : String) :
    Token.chars (ofText path text).tokens = text.toList :=
  Token.chars_ofText path .first text.toList

/-- The tokens further on spell what is left of the text. -/
theorem chars_eq_drop {path text : String} {front back : List Token}
    (h : (ofText path text).tokens = front ++ back) :
    Token.chars back = text.toList.drop (Token.chars front).length := by
  rw [← chars_tokens_ofText path text, h, Token.chars_append, List.drop_left]

/-- No token ends behind the last one. -/
theorem stop_le_stop_of_mem_ofText {path text : String} {t : Token}
    (ht : t ∈ (ofText path text).tokens) :
    t.range.stop.toPosition ≤ (ofText path text).stop.toPosition := by
  obtain ⟨front, back, h⟩ := List.append_of_mem ht
  rw [stop, h]
  rcases List.eq_nil_or_concat back with rfl | ⟨middle, last, rfl⟩
  · rw [List.getLast?_concat]
    exact le_rfl
  · rw [List.concat_eq_append] at h ⊢
    rw [← List.cons_append, ← List.append_assoc, List.getLast?_concat]
    exact (Token.range_le_range_of_ofText h).2

/-- The tokens lie side by side over a text, from its start to its end. -/
structure Tiles (s : TokenStream) (text : String) : Prop where
  /-- Together the tokens spell the text. -/
  spelling_eq : s.spelling = text
  /-- Every token spells something. -/
  spelling_ne : ∀ t ∈ s.tokens, t.spelling ≠ ""
  /-- Every token spells the slice of the text at its range. -/
  spelling_eq_slice : ∀ t ∈ s.tokens, t.spelling = t.range.slice text
  /-- Every range ends behind its start. -/
  start_lt_stop : ∀ t ∈ s.tokens, t.range.start.toPosition < t.range.stop.toPosition
  /-- The first range starts where the text does. -/
  start_first : ∀ t ∈ s.tokens.head?, t.range.start = .start s.path
  /-- Every other range starts where the one before it stops. -/
  start_next : s.tokens.IsChain fun t u => u.range.start = t.range.stop
  /-- The last range stops where the text does. -/
  stop_last : s.stop = ⟨Position.first.pastAll text.toList [], s.path⟩

/-- **The tokens of a text tile it**, whatever the text is. -/
theorem tiles_ofText (path text : String) : (ofText path text).Tiles text where
  spelling_eq := spelling_ofText path text
  spelling_ne _ ht := Token.spelling_ne_of_mem_ofText ht
  spelling_eq_slice t ht := by
    obtain ⟨front, back, h⟩ := List.append_of_mem ht
    have htext : Token.chars front ++ t.spelling.toList ++ Token.chars back = text.toList := by
      rw [← chars_tokens_ofText path text, h, Token.chars_append, Token.chars_cons,
        List.append_assoc]
    rw [Range.slice, (Token.range_of_ofText_append h).2, ← htext, Position.slice_between,
      String.ofList_toList]
  start_lt_stop t ht := by
    obtain ⟨front, back, h⟩ := List.append_of_mem ht
    obtain ⟨hne, hrange⟩ := Token.range_of_ofText_append h
    have hchars : t.spelling.toList ≠ [] := fun hnil => hne (String.toList_eq_nil_iff.1 hnil)
    rw [hrange, Position.pastAll_append]
    exact Position.lt_pastAll _ hchars _
  start_first t ht := by
    obtain ⟨back, h⟩ := List.head?_eq_some_iff.1 ht
    rw [(Token.ofText_eq_cons h).2]
    rfl
  start_next := by
    rw [List.isChain_iff_forall_rel_of_append_cons_cons]
    intro t u front back h
    have hu : (ofText path text).tokens = (front ++ [t]) ++ u :: back := by simpa using h
    rw [(Token.range_of_ofText_append h).2, (Token.range_of_ofText_append hu).2]
    simp
  stop_last := by
    rw [stop]
    cases hlast : (ofText path text).tokens.getLast? with
    | none =>
      have hnil : (ofText path text).tokens = [] := List.getLast?_eq_none_iff.1 hlast
      have htext : text.toList = [] := by
        rw [← chars_tokens_ofText path text, hnil, Token.chars_nil]
      rw [htext]
      rfl
    | some t =>
      obtain ⟨front, h⟩ := List.getLast?_eq_some_iff.1 hlast
      have htext : Token.chars front ++ t.spelling.toList = text.toList := by
        rw [← chars_tokens_ofText path text, h]
        simp
      rw [Option.map_some, Option.getD_some, (Token.range_of_ofText_append h).2, htext]
      rfl

end TokenStream

end DeclFront
