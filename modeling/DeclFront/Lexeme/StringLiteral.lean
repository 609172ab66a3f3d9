import DeclFront.Lexeme.Basic
import DeclFront.Lexeme.Character

/-!
# Lexeme/StringLiteral — text between double quotes

A string ends at the first double quote that is neither escaped nor inside an interpolation. A
backslash escapes the character after it; when that is an opening parenthesis, an interpolation
starts and runs, over any characters at all, to the parenthesis that balances it. Outside
interpolations a line end refuses the string.
-/

namespace DeclFront

/-- Where in a string literal the next character stands. -/
inductive StringMode where
  | plain
  /-- Right after a backslash. -/
  | escaped
  /-- Inside an interpolation, with so many parentheses open. -/
  | interpolation (depth : Nat)
deriving DecidableEq, Repr

namespace StringMode

/-- The character starts an interpolation. -/
def opens (mode : StringMode) (c : Char) : Bool := mode == escaped && c == '('

/-- The character ends the string. -/
def closes (mode : StringMode) (c : Char) : Bool := mode == plain && c == '\"'

/-- The mode after a character that does not end the string, unless no string holds it there. -/
def after : StringMode → Char → Option StringMode
  | interpolation depth, c =>
    if c = '(' then some (interpolation (depth + 1))
    else if c = ')' then
      if depth - 1 = 0 then some plain else some (interpolation (depth - 1))
    else some (interpolation depth)
  | escaped, c =>
    if isLineEnd c then none else if c = '(' then some (interpolation 1) else some plain
  | plain, c =>
    if isLineEnd c then none else if c = '\\' then some escaped else some plain

end StringMode

/-- A string literal after its opening quote: the text up to the closing quote, whether some of it
is interpolated, and what follows the quote. -/
structure StringBody where
  raw : List Char
  interpolated : Bool
  rest : List Char

/-- The body of a string that goes on in a mode. -/
def StringBody.read : StringMode → List Char → Option StringBody
  | _, [] => none
  | mode, c :: cs =>
    if mode.closes c then some ⟨[], false, cs⟩
    else
      match mode.after c with
      | none => none
      | some next =>
        (StringBody.read next cs).map fun body =>
          ⟨c :: body.raw, mode.opens c || body.interpolated, body.rest⟩

/-- The raw text, the closing quote and the rest are the text that was read. -/
theorem StringBody.append_of_read {mode : StringMode} {text : List Char} {body : StringBody}
    (h : StringBody.read mode text = some body) : body.raw ++ '\"' :: body.rest = text := by
  induction text generalizing mode body with
  | nil => simp [StringBody.read] at h
  | cons c cs ih =>
    rw [StringBody.read] at h
    split at h
    · rename_i hc
      obtain rfl := Option.some.inj h
      simp only [StringMode.closes, Bool.and_eq_true, beq_iff_eq] at hc
      simp [hc.2]
    · split at h
      · cases h
      · obtain ⟨inner, hinner, rfl⟩ := Option.map_eq_some_iff.1 h
        simpa using ih hinner

/-- A string literal. -/
def Lexeme.stringLiteral? : Recognizer
  | '\"' :: text =>
    (StringBody.read .plain text).map fun body =>
      ⟨.literal (.string body.interpolated (String.ofList body.raw)),
        '\"' :: body.raw ++ ['\"'], body.rest⟩
  | _ => none

theorem Lexeme.sound_stringLiteral? : Recognizer.Sound stringLiteral? := by
  intro text lexeme h
  unfold stringLiteral? at h
  split at h
  · obtain ⟨body, hbody, rfl⟩ := Option.map_eq_some_iff.1 h
    exact ⟨by simp [StringBody.append_of_read hbody], by simp,
      by simp [TokenKind.spelling, Literal.spelling]⟩
  · cases h

end DeclFront
