import DeclFront.TokenStream

/-!
# Proofs/Lexeme/Slice — what a recognizer takes lies inside the text

    front    ┊ "  raw  " ┊    behind
    0 ─────▸ p           p + n ─────▸ length

A recognizer looks at the text from a place `p` on and takes some `n` characters, of which a kind
keeps all, or all but the marks at both ends.  What is found is the beginning of the text it was
found in (`Lexeme.Begins`), so `n` is not zero, the `n` characters are there, and every slice stops
where the text has not yet ended (`Lexeme.Begins.liesIn`).
-/

namespace DeclFront

/-! ## Slices -/

namespace TokenKind

/-- The characters that a kind keeps; a boolean, `nil`, a mark or a blank keeps all of its own. -/
def kept : TokenKind → String
  | literal (.string _ raw) => raw
  | quotedIdentifier name => name
  | kind => kind.spelling

/-- How many characters at each end of the spelling are not kept. -/
def margin : TokenKind → Nat
  | literal (.string _ _) | quotedIdentifier _ => 1
  | _ => 0

/-- The spelling is what is kept, between two marks or none. -/
theorem exists_spelling_eq (kind : TokenKind) :
    ∃ mark : List Char, mark.length = kind.margin ∧
      kind.spelling.toList = mark ++ (kind.kept.toList ++ mark) := by
  cases kind with
  | literal value =>
    cases value with
    | string interpolated raw => exact ⟨['\"'], rfl, by simp [spelling, Literal.spelling, kept]⟩
    | number | boolean | nil => exact ⟨[], rfl, by simp [kept]⟩
  | quotedIdentifier name => exact ⟨['\x60'], rfl, by simp [spelling, kept]⟩
  | identifier | keyword | punctuator | operator | comment | control | invalid =>
    exact ⟨[], rfl, by simp [kept]⟩

end TokenKind

/-- The lexeme is a stretch of the text from a place on, and so is what its kind keeps. -/
structure Lexeme.LiesIn (lexeme : Lexeme) (text : List Char) (place : Nat) : Prop where
  one_le_length : 1 ≤ lexeme.chars.length
  /-- It is no longer than what is left. -/
  length_le : place + lexeme.chars.length ≤ text.length
  chars_eq : lexeme.chars = (text.drop place).take lexeme.chars.length
  rest_eq : lexeme.rest = text.drop (place + lexeme.chars.length)
  /-- The slice that is kept starts before it stops, and stops inside the lexeme. -/
  margin_le : lexeme.kind.margin ≤ lexeme.chars.length - lexeme.kind.margin
  kept_eq : lexeme.kind.kept.toList =
    ((text.drop place).take (lexeme.chars.length - lexeme.kind.margin)).drop lexeme.kind.margin

/-- **What begins the text at a place lies in it.** -/
theorem Lexeme.Begins.liesIn {lexeme : Lexeme} {text : List Char} {place : Nat}
    (h : lexeme.Begins (text.drop place)) : lexeme.LiesIn text place := by
  have hpos := List.length_pos_iff.2 h.chars_ne_nil
  have hlength := congrArg List.length h.chars_append_rest
  rw [List.length_append, List.length_drop] at hlength
  obtain ⟨mark, hmark, hspelling⟩ := lexeme.kind.exists_spelling_eq
  rw [h.spelling_eq] at hspelling
  have hsum := congrArg List.length hspelling
  rw [List.length_append, List.length_append, hmark] at hsum
  refine ⟨hpos, by omega, ?_, ?_, by omega, ?_⟩
  · rw [← h.chars_append_rest, List.take_left]
  · rw [← List.drop_drop, ← h.chars_append_rest, List.drop_left]
  · have htake : lexeme.chars.length - lexeme.kind.margin =
        (mark ++ lexeme.kind.kept.toList).length := by
      rw [List.length_append, hmark]
      omega
    rw [← h.chars_append_rest, htake, hspelling, ← List.append_assoc, List.append_assoc,
      List.take_left, ← hmark, List.drop_left]

/-! ## Recognizers -/

namespace Lexeme

/-- The recognizers of numbers, one for each form. -/
def numeralRecognizers : List Recognizer :=
  NumberForm.inOrder.map fun form =>
    .ofMunch form.munch fun spelling => .literal (.number form spelling)

/-- The recognizers of punctuators and operators. -/
def symbolRecognizers : List Recognizer := [arrow?, pointOperator?, delimiter?, operator?]

/-- All recognizers in the order in which they are tried, one by one. -/
def singleRecognizers : List Recognizer :=
  stringLiteral? :: numeralRecognizers ++
    (word? :: quotedName? :: parameter? :: comment? :: symbolRecognizers ++ [control?])

/-- The recognizers tried one by one are those that the reader of texts tries. -/
theorem firstOf_singleRecognizers :
    Recognizer.firstOf singleRecognizers = Recognizer.firstOf recognizers := by
  funext text
  have hnumeral : Recognizer.firstOf numeralRecognizers = numeral? := rfl
  have hsymbol : Recognizer.firstOf symbolRecognizers = symbol? := rfl
  simp only [singleRecognizers, recognizers, List.cons_append, Recognizer.firstOf_cons,
    Recognizer.firstOf_append, hnumeral, hsymbol]

/-- Each recognizer is sound by itself. -/
theorem sound_of_mem_singleRecognizers {recognizer : Recognizer}
    (h : recognizer ∈ singleRecognizers) : recognizer.Sound := by
  simp only [singleRecognizers, symbolRecognizers, List.cons_append, List.mem_cons, List.mem_append,
    List.not_mem_nil, or_false, List.nil_append] at h
  obtain rfl | hnumeral | rfl | rfl | rfl | rfl | rfl | rfl | rfl | rfl | rfl := h
  · exact sound_stringLiteral?
  · obtain ⟨form, -, rfl⟩ := List.mem_map.1 hnumeral
    exact Recognizer.sound_ofMunch form.consumes_munch fun _ => rfl
  · exact sound_word?
  · exact sound_quotedName?
  · exact sound_parameter?
  · exact sound_comment?
  · exact sound_arrow?
  · exact sound_pointOperator?
  · exact sound_delimiter?
  · exact sound_operator?
  · exact sound_control?

end Lexeme

end DeclFront
