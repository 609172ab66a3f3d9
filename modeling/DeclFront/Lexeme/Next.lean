import DeclFront.Lexeme.Numeral
import DeclFront.Lexeme.StringLiteral
import DeclFront.Lexeme.Symbol
import DeclFront.Lexeme.Word

/-!
# Lexeme/Next — the token at the front of a text

Every text that is not empty begins with a lexeme: the first one that a recognizer finds, and a
single invalid character where none finds any.
-/

namespace DeclFront

/-- One blank or line end. -/
def Lexeme.control? : Recognizer
  | [] => none
  | c :: rest => (Control.ofChar? c).map fun control => ⟨.control control, [c], rest⟩

theorem Lexeme.sound_control? : Recognizer.Sound control? := by
  intro text lexeme h
  unfold control? at h
  split at h
  · cases h
  · obtain ⟨control, hcontrol, rfl⟩ := Option.map_eq_some_iff.1 h
    exact ⟨rfl, by simp, by simp [TokenKind.spelling, Control.char_eq_of_ofChar? hcontrol]⟩

namespace Lexeme

/-- The recognizers in the order in which they are tried. -/
def recognizers : List Recognizer :=
  [stringLiteral?, numeral?, word?, quotedName?, parameter?, comment?, symbol?, control?]

/-- A character that begins no token. -/
def invalid (c : Char) (rest : List Char) : Lexeme := ⟨.invalid c.toString, [c], rest⟩

/-- The lexeme at the front of the text `c :: cs`. -/
def next (c : Char) (cs : List Char) : Lexeme :=
  (Recognizer.firstOf recognizers (c :: cs)).getD (invalid c cs)

/-- An invalid lexeme is the one character that it was made of. -/
theorem begins_invalid (c : Char) (rest : List Char) : (invalid c rest).Begins (c :: rest) :=
  ⟨rfl, by simp [invalid], by simp [invalid, TokenKind.spelling]⟩

/-- **Every text goes on with a lexeme.** -/
theorem begins_next (c : Char) (cs : List Char) : (next c cs).Begins (c :: cs) := by
  have sound : (Recognizer.firstOf recognizers).Sound := Recognizer.sound_firstOf <| by
    simp only [recognizers, List.forall_mem_cons, List.not_mem_nil]
    exact ⟨sound_stringLiteral?, sound_numeral?, sound_word?, sound_quotedName?, sound_parameter?,
      sound_comment?, sound_symbol?, sound_control?, by simp⟩
  unfold next
  cases h : Recognizer.firstOf recognizers (c :: cs) with
  | none => exact begins_invalid c cs
  | some lexeme => exact sound _ _ h

end Lexeme

end DeclFront
