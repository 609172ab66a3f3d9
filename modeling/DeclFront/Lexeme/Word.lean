import DeclFront.Lexeme.Basic
import DeclFront.Lexeme.Character
import DeclFront.Lexeme.Numeral

/-!
# Lexeme/Word — names and keywords

A word is read to its end before it is told what it is, so a keyword never matches the beginning of
a longer word. A word between backticks is a name, whatever word it is. A dollar sign and a run of
digits name a parameter by its place.
-/

namespace DeclFront

/-- The whole word at the front of a text. -/
def Munch.word : Munch := (one isIdentifierHead).seq (many isIdentifierChar)

/-- A bare word. -/
def Lexeme.word? : Recognizer := .ofMunch .word TokenKind.ofWord

theorem Lexeme.sound_word? : Recognizer.Sound word? :=
  Recognizer.sound_ofMunch ((Munch.consumes_one _).seq_left _) TokenKind.spelling_ofWord

/-- A word between backticks. -/
def Lexeme.quotedName? : Recognizer
  | '\x60' :: text =>
    match Munch.word.read text with
    | some (name, '\x60' :: rest) =>
      some ⟨.quotedIdentifier (String.ofList name), '\x60' :: name ++ ['\x60'], rest⟩
    | _ => none
  | _ => none

theorem Lexeme.sound_quotedName? : Recognizer.Sound quotedName? := by
  intro text lexeme h
  unfold quotedName? at h
  split at h
  · split at h
    · rename_i name rest hread
      obtain rfl := Option.some.inj h
      exact ⟨by simp [← Munch.word.append_of_read hread], by simp, by simp [TokenKind.spelling]⟩
    · cases h
  · cases h

/-- A dollar sign and digits. -/
def Lexeme.parameter? : Recognizer :=
  .ofMunch ((Munch.char '$').seq (.run Char.isDigit)) .identifier

theorem Lexeme.sound_parameter? : Recognizer.Sound parameter? :=
  Recognizer.sound_ofMunch ((Munch.consumes_one _).seq_left _) fun _ => rfl

end DeclFront
