import DeclFront.Lexeme.Next

/-!
# TokenStream — a text as tokens

`TokenStream.ofText` reads a text lexeme by lexeme and marks each with its range; no text is refused
and no character is left out (`spelling_ofText`). The *significant* tokens are those that are not
trivia.
-/

namespace DeclFront

/-- The tokens of a text whose first character is at `p` in the text named by `path`. -/
def Token.ofText (path : String) (p : Position) : List Char → List Token
  | [] => []
  | c :: cs =>
    let lexeme := Lexeme.next c cs
    let stop := p.pastAll lexeme.chars lexeme.rest
    ⟨lexeme.kind, ⟨p, path⟩, ⟨stop, path⟩⟩ :: Token.ofText path stop lexeme.rest
termination_by text => text.length
decreasing_by exact (Lexeme.begins_next c cs).length_rest_lt

/-- No character is lost between the tokens. -/
theorem Token.flatMap_spelling_ofText (path : String) (p : Position) (text : List Char) :
    (Token.ofText path p text).flatMap (·.spelling.toList) = text := by
  fun_induction Token.ofText path p text with
  | case1 => rfl
  | case2 p c cs lexeme stop ih =>
    have h := Lexeme.begins_next c cs
    rw [List.flatMap_cons, ih]
    simp only [Token.spelling]
    rw [h.spelling_eq, h.chars_append_rest]

/-- The tokens of the text named by `path`, in order. -/
structure TokenStream where
  path : String
  tokens : List Token
deriving DecidableEq, Repr

namespace TokenStream

/-- The tokens of a text. -/
def ofText (path text : String) : TokenStream := ⟨path, Token.ofText path .first text.toList⟩

/-- The tokens that are not trivia. -/
def significant (s : TokenStream) : List Token := s.tokens.filter (!·.isTrivia)

/-- The text that the tokens spell. -/
def spelling (s : TokenStream) : String := String.join (s.tokens.map Token.spelling)

/-- Where the last token ends. -/
def stop (s : TokenStream) : Location :=
  (s.tokens.getLast?.map (·.range.stop)).getD (.start s.path)

/-- **Nothing is lost**: the tokens of a text spell it. -/
theorem spelling_ofText (path text : String) : (ofText path text).spelling = text := by
  apply String.toList_injective
  rw [spelling, ofText]
  simp only [String.toList_join, List.flatMap_map]
  exact Token.flatMap_spelling_ofText path .first text.toList

end TokenStream

end DeclFront
