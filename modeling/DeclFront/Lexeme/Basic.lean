import DeclFront.Text.Munch
import DeclFront.Token.Basic

/-!
# Lexeme/Basic — a token at the front of a text

A `Lexeme` is a token kind with the characters it was read from and the text after them. A
`Recognizer` finds one sort of lexeme at the front of a text. A recognizer is *sound* when what it
finds is the beginning of the text: the characters and the rest make the text up, there is at least
one character, and the characters are the spelling of the kind.
-/

namespace DeclFront

/-- A token kind, the characters it was read from, and the text after them. -/
structure Lexeme where
  kind : TokenKind
  chars : List Char
  rest : List Char
deriving DecidableEq, Repr

/-- The lexeme is the beginning of the text. -/
structure Lexeme.Begins (lexeme : Lexeme) (text : List Char) : Prop where
  chars_append_rest : lexeme.chars ++ lexeme.rest = text
  chars_ne_nil : lexeme.chars ≠ []
  spelling_eq : lexeme.kind.spelling.toList = lexeme.chars

/-- Behind a lexeme there is less text, so reading one after the other comes to an end. -/
theorem Lexeme.Begins.length_rest_lt {lexeme : Lexeme} {text : List Char}
    (h : lexeme.Begins text) : lexeme.rest.length < text.length := by
  have := List.length_pos_iff.2 h.chars_ne_nil
  rw [← h.chars_append_rest, List.length_append]
  omega

/-- What finds one sort of lexeme at the front of a text. -/
abbrev Recognizer := List Char → Option Lexeme

namespace Recognizer

/-- What the recognizer finds is the beginning of the text. -/
def Sound (recognizer : Recognizer) : Prop :=
  ∀ text lexeme, recognizer text = some lexeme → lexeme.Begins text

/-- What a munch reads, as a token that it spells. -/
def ofMunch (munch : Munch) (kind : String → TokenKind) : Recognizer := fun text =>
  (munch.read text).map fun (front, rest) => ⟨kind (String.ofList front), front, rest⟩

/-- What a munch takes is spelled by its kind, so its recognizer is sound. -/
theorem sound_ofMunch {munch : Munch} {kind : String → TokenKind} (consumes : munch.Consumes)
    (spelling : ∀ s, (kind s).spelling = s) : (ofMunch munch kind).Sound := by
  intro text lexeme h
  obtain ⟨⟨front, rest⟩, hread, rfl⟩ := Option.map_eq_some_iff.1 h
  exact ⟨munch.append_of_read hread, consumes _ _ _ hread, by simp [spelling]⟩

/-- The first lexeme that some recognizer of the list finds. -/
def firstOf (recognizers : List Recognizer) : Recognizer := fun text =>
  recognizers.findSome? fun recognizer => recognizer text

theorem firstOf_cons (recognizer : Recognizer) (others : List Recognizer) (text : List Char) :
    firstOf (recognizer :: others) text = (recognizer text).or (firstOf others text) := by
  rw [firstOf, firstOf, List.findSome?_cons]
  cases recognizer text <;> rfl

theorem firstOf_append (recognizers others : List Recognizer) (text : List Char) :
    firstOf (recognizers ++ others) text =
      (firstOf recognizers text).or (firstOf others text) := List.findSome?_append

/-- Alternatives are sound when each is. -/
theorem sound_firstOf {recognizers : List Recognizer}
    (sound : ∀ recognizer ∈ recognizers, recognizer.Sound) : (firstOf recognizers).Sound := by
  intro text lexeme h
  obtain ⟨recognizer, hmem, hfound⟩ := List.exists_of_findSome?_eq_some h
  exact sound recognizer hmem _ _ hfound

end Recognizer

end DeclFront
