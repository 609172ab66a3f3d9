import DeclFront.Lexeme.Basic
import DeclFront.Lexeme.Character

/-!
# Lexeme/Comment — line comments and block comments

A line comment runs up to the end of its line, without it. Block comments nest: each opening mark
wants a closing mark of its own, and a comment that lacks one runs to the end of the text.
-/

namespace DeclFront

/-- A comment starts at the front of the text. -/
def startsComment : List Char → Bool
  | '/' :: '/' :: _ => true
  | '/' :: '*' :: _ => true
  | _ => false

/-- The rest of a block comment with so many opening marks still to close, and the text after it. -/
def blockComment : (depth : Nat) → List Char → List Char × List Char
  | depth, '/' :: '*' :: cs =>
    let (comment, rest) := blockComment (depth + 1) cs
    ('/' :: '*' :: comment, rest)
  | depth, '*' :: '/' :: cs =>
    if depth - 1 = 0 then (['*', '/'], cs)
    else
      let (comment, rest) := blockComment (depth - 1) cs
      ('*' :: '/' :: comment, rest)
  | depth, c :: cs =>
    let (comment, rest) := blockComment depth cs
    (c :: comment, rest)
  | _, [] => ([], [])

/-- A block comment and the rest behind it are the text that was read. -/
theorem append_blockComment (depth : Nat) (text : List Char) :
    (blockComment depth text).1 ++ (blockComment depth text).2 = text := by
  fun_induction blockComment depth text <;> simp_all

/-- A comment of either sort. -/
def Lexeme.comment? : Recognizer
  | '/' :: '/' :: text =>
    let front := '/' :: '/' :: text.takeWhile (!isLineEnd ·)
    some ⟨.comment (String.ofList front), front, text.dropWhile (!isLineEnd ·)⟩
  | '/' :: '*' :: text =>
    let (comment, rest) := blockComment 1 text
    some ⟨.comment (String.ofList ('/' :: '*' :: comment)), '/' :: '*' :: comment, rest⟩
  | _ => none

theorem Lexeme.sound_comment? : Recognizer.Sound comment? := by
  intro text lexeme h
  unfold comment? at h
  split at h
  · obtain rfl := Option.some.inj h
    exact ⟨by simp [List.takeWhile_append_dropWhile], by simp, by simp [TokenKind.spelling]⟩
  · rename_i text
    obtain rfl := Option.some.inj h
    exact ⟨by simp [append_blockComment], by simp, by simp [TokenKind.spelling]⟩
  · cases h

end DeclFront
