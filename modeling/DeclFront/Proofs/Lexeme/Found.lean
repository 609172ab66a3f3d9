import DeclFront.Proofs.Lexeme.Symbol

/-!
# Proofs/Lexeme/Found — which recognizer finds a lexeme, and what its kind then is

What stands at the front of a text was found by one of the recognizers, or by none
(`isFound_next`).  Each of them gives kinds of its own, so a claim about the lexemes of one kind is
settled at the recognizer that gives it, and at the others by their kinds.
-/

namespace DeclFront

namespace Lexeme

/-- How the lexeme at the front of the text `c :: cs` was found, and what its kind is by this. -/
inductive IsFound (c : Char) (cs : List Char) (lexeme : Lexeme) : Prop where
  | string {interpolated : Bool} {raw : String} (hfound : stringLiteral? (c :: cs) = some lexeme)
      (hkind : lexeme.kind = .literal (.string interpolated raw))
  | number {form : NumberForm} {spelling : String} (hfound : numeral? (c :: cs) = some lexeme)
      (hkind : lexeme.kind = .literal (.number form spelling))
  | word {word : String} (hfound : word? (c :: cs) = some lexeme)
      (hkind : lexeme.kind = .ofWord word)
  | quotedName {name : String} (hfound : quotedName? (c :: cs) = some lexeme)
      (hkind : lexeme.kind = .quotedIdentifier name)
  | parameter {name : String} (hfound : parameter? (c :: cs) = some lexeme)
      (hkind : lexeme.kind = .identifier name)
  | comment {body : String} (hfound : comment? (c :: cs) = some lexeme)
      (hkind : lexeme.kind = .comment body)
  | punctuator {p : Punctuator} (hfound : symbol? (c :: cs) = some lexeme)
      (hkind : lexeme.kind = .punctuator p)
  | operator {spelling : String} (hfound : symbol? (c :: cs) = some lexeme)
      (hkind : lexeme.kind = .operator spelling)
  | control {control : Control} (hfound : control? (c :: cs) = some lexeme)
      (hkind : lexeme.kind = .control control)
  | nowhere (hnone : FindsNothing c cs) (hlexeme : lexeme = invalid c cs)

variable {c : Char} {cs text : List Char} {lexeme : Lexeme}

/-- A recognizer made from a munch takes what the munch takes. -/
theorem read_of_ofMunch {munch : Munch} {kind : String → TokenKind}
    (h : Recognizer.ofMunch munch kind text = some lexeme) :
    munch.read text = some (lexeme.chars, lexeme.rest) ∧
      lexeme.kind = kind (String.ofList lexeme.chars) := by
  obtain ⟨⟨front, rest⟩, hread, rfl⟩ := Option.map_eq_some_iff.1 h
  exact ⟨hread, rfl⟩

/-- A quoted name is found at a word between backticks, and nowhere else. -/
theorem quotedName?_eq_some_iff :
    quotedName? text = some lexeme ↔
      ∃ name rest, Munch.word.read (name ++ '\x60' :: rest) = some (name, '\x60' :: rest) ∧
        text = '\x60' :: (name ++ '\x60' :: rest) ∧
          lexeme = ⟨.quotedIdentifier (String.ofList name), '\x60' :: name ++ ['\x60'], rest⟩ := by
  constructor
  · intro h
    unfold quotedName? at h
    split at h
    · split at h
      · rename_i name rest hread
        obtain rfl := Munch.word.append_of_read hread
        exact ⟨name, rest, hread, rfl, (Option.some.inj h).symm⟩
      · cases h
    · cases h
  · rintro ⟨name, rest, hread, rfl, rfl⟩
    simp only [quotedName?, hread]

/-- Whether it is closed or not, a comment is found as one. -/
theorem isFound_of_comment? (h : comment? (c :: cs) = some lexeme) : IsFound c cs lexeme := by
  have hbody : ∃ body, lexeme.kind = .comment body := by
    have hfound := h
    unfold comment? at hfound
    split at hfound <;> cases hfound <;> exact ⟨_, rfl⟩
  exact .comment h hbody.choose_spec

/-- A symbol is a punctuator or an operator. -/
theorem isFound_of_symbol? (h : symbol? (c :: cs) = some lexeme) : IsFound c cs lexeme := by
  have hsymbol := isSymbol_of_symbol? h
  generalize hchars : c :: cs = chars at hsymbol
  cases hsymbol with
  | arrow rest => exact .punctuator h rfl
  | points hrun => exact .operator h rfl
  | delimiter hp rest => exact .punctuator h rfl
  | @run run rest hrun harrow =>
    cases hp : Punctuator.ofOperator? (String.ofList run) with
    | some p => exact .punctuator (p := p) h (by rw [TokenKind.ofOperatorRun, hp])
    | none => exact .operator h (by rw [TokenKind.ofOperatorRun, hp])

/-- **What a recognizer finds is of its own kind.** -/
theorem isFound_of_mem {recognizer : Recognizer} (hmem : recognizer ∈ recognizers)
    (h : recognizer (c :: cs) = some lexeme) : IsFound c cs lexeme := by
  simp only [recognizers, List.mem_cons, List.not_mem_nil, or_false] at hmem
  rcases hmem with rfl | rfl | rfl | rfl | rfl | rfl | rfl | rfl
  · have hfound := h
    unfold stringLiteral? at hfound
    split at hfound
    · obtain ⟨body, -, rfl⟩ := Option.map_eq_some_iff.1 hfound
      exact .string h rfl
    · cases hfound
  · obtain ⟨recognizer, hmem, hfound⟩ := List.exists_of_findSome?_eq_some h
    obtain ⟨form, -, rfl⟩ := List.mem_map.1 hmem
    exact .number h (read_of_ofMunch hfound).2
  · exact .word h (read_of_ofMunch h).2
  · obtain ⟨name, rest, -, -, rfl⟩ := quotedName?_eq_some_iff.1 h
    exact .quotedName h rfl
  · exact .parameter h (read_of_ofMunch h).2
  · exact isFound_of_comment? h
  · exact isFound_of_symbol? h
  · obtain ⟨control, -, rfl⟩ := Option.map_eq_some_iff.1 h
    exact .control h rfl

/-- **Every lexeme was found in one of these ways.** -/
theorem isFound_next (c : Char) (cs : List Char) : IsFound c cs (next c cs) := by
  obtain ⟨recognizer, hmem, h⟩ | ⟨hnone, hinvalid⟩ := exists_found_or_eq_invalid c cs
  · exact isFound_of_mem hmem h
  · exact .nowhere hnone hinvalid

end Lexeme

end DeclFront
