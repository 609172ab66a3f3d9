import DeclFront.Syntax.Declaration
import DeclFront.TokenStream

/-!
# Grammar/Terminal — what the grammar sees of a token stream

A `Terminal` is a significant token with the trivia in front of it. A token stream is a list of
terminals and perhaps trivia at its end, which no rule of the grammar asks for. A terminal without
trivia in front is *adjacent* to the one before it.
-/

namespace DeclFront

/-- The access level that a token asks for. -/
def TokenKind.accessLevel? : TokenKind → Option AccessLevel
  | keyword k => AccessLevel.ofWord? k.word
  | _ => none

/-- A significant token with the trivia in front of it. -/
structure Terminal where
  leading : List Token
  token : Token
deriving DecidableEq, Repr

namespace Terminal

/-- One more token in front of a list of terminals. -/
def prepend (t : Token) (terminals : List Terminal) : List Terminal :=
  if t.isTrivia then
    match terminals with
    | [] => []
    | first :: others => ⟨t :: first.leading, first.token⟩ :: others
  else ⟨[], t⟩ :: terminals

/-- The terminals that tokens make; trivia behind the last significant token is dropped. -/
def ofTokens (tokens : List Token) : List Terminal := tokens.foldr prepend []

/-- The tokens of the terminals are those that are not trivia. -/
theorem map_token_ofTokens :
    ∀ tokens, (ofTokens tokens).map token = tokens.filter (!·.isTrivia)
  | [] => rfl
  | t :: tokens => by
    have ih := map_token_ofTokens tokens
    rw [ofTokens, List.foldr_cons, ← ofTokens]
    by_cases h : t.isTrivia
    · cases hts : ofTokens tokens <;> simp_all [prepend]
    · simp [prepend, h, ih]

/-- The range of the token, without the trivia in front. -/
def range (t : Terminal) : Range := t.token.range

/-- No trivia stands in front of the terminal. -/
def isAdjacent (t : Terminal) : Bool := t.leading.isEmpty

/-- The text of the terminal and of the trivia in front of it. -/
def spelling (t : Terminal) : String :=
  String.join (t.leading.map Token.spelling) ++ t.token.spelling

/-- The terminal is a given punctuator. -/
def isPunctuator (p : Punctuator) (t : Terminal) : Bool := t.token.kind.isPunctuator p

/-- The terminal is a given keyword. -/
def isKeyword (word : String) (t : Terminal) : Bool := t.token.kind.isKeyword word

/-- The level that the terminal stands for, when it is an access keyword. -/
def accessLevel? (t : Terminal) : Option AccessLevel := t.token.kind.accessLevel?

/-- The name that the terminal gives, with its range. -/
def name? (t : Terminal) : Option Name := t.token.kind.name?.map fun text => ⟨text, t.range⟩

/-- A declaration can begin with the terminal. -/
def startsDeclaration (t : Terminal) : Bool :=
  t.isPunctuator .atSign || t.accessLevel?.isSome || t.isKeyword "enum" || t.isKeyword "import"

end Terminal

end DeclFront
