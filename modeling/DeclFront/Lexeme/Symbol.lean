import DeclFront.Lexeme.Comment

/-!
# Lexeme/Symbol — punctuators and operators

The arrow comes first, then operators that start with two points, then the delimiters, and last the
runs of operator characters. A run is as long as it can be but stops before a comment; the runs `=`,
`!`, `&` and `?` are punctuators and all others are operators.

A backtick before the head of an identifier is no delimiter: it belongs to a quoted name, even to
one that nothing closes.
-/

namespace DeclFront

/-- The longest run of characters of a class that stops before a comment. -/
def symbolRun (accepts : Char → Bool) : List Char → List Char × List Char
  | [] => ([], [])
  | c :: cs =>
    if accepts c && !startsComment (c :: cs) then
      let (run, rest) := symbolRun accepts cs
      (c :: run, rest)
    else ([], c :: cs)

/-- A run of symbols and the rest behind it are the text that was read. -/
theorem append_symbolRun (accepts : Char → Bool) :
    ∀ text, (symbolRun accepts text).1 ++ (symbolRun accepts text).2 = text
  | [] => rfl
  | c :: cs => by
    rw [symbolRun]
    split
    · simp [append_symbolRun accepts cs]
    · rfl

/-- What a run of operator characters is. -/
def TokenKind.ofOperatorRun (run : String) : TokenKind :=
  match Punctuator.ofOperator? run with
  | some p => punctuator p
  | none => operator run

/-- A run is spelled as it was read, whether it is an operator or a punctuator. -/
theorem TokenKind.spelling_ofOperatorRun (run : String) : (ofOperatorRun run).spelling = run := by
  unfold ofOperatorRun
  split
  · exact Punctuator.spelling_of_ofOperator? ‹_›
  · rfl

/-- The arrow. -/
def Lexeme.arrow? : Recognizer
  | '-' :: '>' :: rest => some ⟨.punctuator .arrow, ['-', '>'], rest⟩
  | _ => none

/-- An operator that starts with two points. -/
def Lexeme.pointOperator? : Recognizer
  | '.' :: '.' :: text =>
    let (run, rest) := symbolRun (fun c => c == '.' || isOperatorChar c) text
    some ⟨.operator (String.ofList ('.' :: '.' :: run)), '.' :: '.' :: run, rest⟩
  | _ => none

/-- The character opens a quoted name in front of `rest`. -/
def opensQuotedName (c : Char) (rest : List Char) : Bool :=
  c == '\x60' && rest.head?.any isIdentifierHead

/-- A delimiter. -/
def Lexeme.delimiter? : Recognizer
  | [] => none
  | c :: rest =>
    if opensQuotedName c rest then none
    else (Punctuator.ofDelimiter? c).map fun p => ⟨.punctuator p, [c], rest⟩

/-- A run of operator characters. -/
def Lexeme.operator? : Recognizer := fun text =>
  match symbolRun isOperatorChar text with
  | ([], _) => none
  | (run, rest) => some ⟨.ofOperatorRun (String.ofList run), run, rest⟩

/-- A punctuator or an operator. -/
def Lexeme.symbol? : Recognizer := .firstOf [arrow?, pointOperator?, delimiter?, operator?]

/-! ## Soundness -/

theorem Lexeme.sound_arrow? : Recognizer.Sound arrow? := by
  intro text lexeme h
  unfold arrow? at h
  split at h
  · obtain rfl := Option.some.inj h
    exact ⟨rfl, by simp, by simp [TokenKind.spelling, Punctuator.spelling]⟩
  · cases h

theorem Lexeme.sound_pointOperator? : Recognizer.Sound pointOperator? := by
  intro text lexeme h
  unfold pointOperator? at h
  split at h
  · obtain rfl := Option.some.inj h
    exact ⟨by simp [append_symbolRun], by simp, by simp [TokenKind.spelling]⟩
  · cases h

theorem Lexeme.sound_delimiter? : Recognizer.Sound delimiter? := by
  intro text lexeme h
  unfold delimiter? at h
  split at h
  · cases h
  · split at h
    · cases h
    · obtain ⟨p, hp, rfl⟩ := Option.map_eq_some_iff.1 h
      exact ⟨rfl, by simp, Punctuator.spelling_of_ofDelimiter? hp⟩

theorem Lexeme.sound_operator? : Recognizer.Sound operator? := by
  intro text lexeme h
  unfold operator? at h
  split at h
  · cases h
  · rename_i run rest hne hrun
    obtain rfl := Option.some.inj h
    have := append_symbolRun isOperatorChar text
    rw [hrun] at this
    exact ⟨this, fun hnil => hne (by simp_all) , by simp [TokenKind.spelling_ofOperatorRun]⟩

theorem Lexeme.sound_symbol? : Recognizer.Sound symbol? :=
  Recognizer.sound_firstOf <| by
    simp only [List.forall_mem_cons, List.not_mem_nil]
    exact ⟨sound_arrow?, sound_pointOperator?, sound_delimiter?, sound_operator?, by simp⟩

end DeclFront
