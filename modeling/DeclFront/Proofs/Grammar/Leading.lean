import DeclFront.Grammar.Outcome
import DeclFront.Proofs.Grammar.Terminals

/-!
# Proofs/Grammar/Leading — the trivia in front of a text

Trivia in front of the first terminal separates nothing from it, and the parser does not see it
(`declarations_addLeading`).  So a token stream in two parts is the terminals of the one and then
those of the other, but for the trivia that trails the one (`exists_ofTokens_append`).

A terminal that can start no declaration is not passed over by any rule (`declaration_of_stray`).
-/

namespace DeclFront

namespace Terminal

/-- Terminals with more trivia in front of the first. -/
def addLeading (trivia : List Token) : List Terminal → List Terminal
  | [] => []
  | t :: ts => ⟨trivia ++ t.leading, t.token⟩ :: ts

/-- Trivia in front of a stream goes to its first terminal. -/
theorem ofTokens_trivia_append {trivia : List Token} (h : ∀ t ∈ trivia, t.isTrivia = true)
    (stream : List Token) : ofTokens (trivia ++ stream) = addLeading trivia (ofTokens stream) := by
  induction trivia with
  | nil =>
    rw [List.nil_append]
    cases ofTokens stream <;> rfl
  | cons t trivia ih =>
    rw [List.cons_append, ofTokens_cons, ih fun u hu => h u (List.mem_cons_of_mem _ hu),
      prepend.eq_def, if_pos (h t List.mem_cons_self)]
    cases ofTokens stream <;> rfl

/-- Terminals without the trivia in front of the first. -/
def dropLeading : List Terminal → List Terminal
  | [] => []
  | t :: ts => ⟨[], t.token⟩ :: ts

/-- Without the trivia in front, the tokens begin with the first significant one. -/
theorem head?_tokens_dropLeading (ts : List Terminal) :
    (tokens (dropLeading ts)).head? = ts.head?.map token := by
  cases ts <;> rfl

theorem isRegular_dropLeading {ts : List Terminal} (h : ∀ t ∈ ts, t.IsRegular) :
    ∀ t ∈ dropLeading ts, t.IsRegular := by
  cases ts with
  | nil => exact List.forall_mem_nil _
  | cons t ts =>
    rw [List.forall_mem_cons] at h
    exact List.forall_mem_cons.2 ⟨⟨List.forall_mem_nil _, h.1.2⟩, h.2⟩

/-- The trivia in front of the first terminal stand in front of the tokens. -/
theorem exists_tokens_eq_append (ts : List Terminal) :
    ∃ trivia, addLeading trivia (dropLeading ts) = ts ∧
      tokens ts = trivia ++ tokens (dropLeading ts) := by
  rcases ts with _ | ⟨t, ts⟩
  · exact ⟨[], rfl, rfl⟩
  · refine ⟨t.leading, ?_, tokens_cons t ts⟩
    rw [dropLeading, addLeading, List.append_nil]

/-- The terminals of a token stream in two parts. -/
theorem exists_ofTokens_append (front back : List Token) :
    ∃ trivia, ofTokens (front ++ back) = ofTokens front ++ addLeading trivia (ofTokens back) := by
  obtain ⟨hregular, trailing, htrailing, hfront⟩ := exists_trailing front
  refine ⟨trailing, ?_⟩
  rw [← ofTokens_trivia_append htrailing, ← ofTokens_tokens_append hregular, ← List.append_assoc,
    ← hfront]

end Terminal

namespace Grammar

variable {t : Terminal} {stop : Location}

/-- No rule passes over a terminal that can start no declaration. -/
theorem declaration_of_stray (h : t.startsDeclaration = false) (ts : List Terminal) :
    declaration (t :: ts) = ⟨[], .unexpected .declaration (t :: ts)⟩ := by
  simp only [Terminal.startsDeclaration, Bool.or_eq_false_iff, Option.isSome_eq_false_iff,
    Option.isNone_iff_eq_none] at h
  obtain ⟨⟨⟨hsign, hlevel⟩, henum⟩, himport⟩ := h
  have hhead : declarationHead (t :: ts) = .done ⟨[], none⟩ (t :: ts) := by
    rw [declarationHead, attributes_of_other hsign, Reading.andThen, accessModifier, hlevel]
    rfl
  rw [declaration, hhead]
  simp only [declarationAfter, henum, himport, Bool.false_eq_true, if_false]
  rfl

/-- A declaration does not look at the trivia in front of it. -/
theorem declaration_of_leading (h : t.startsDeclaration = true) (leading' : List Token)
    (ts : List Terminal) : declaration (t :: ts) = declaration (⟨leading', t.token⟩ :: ts) := by
  obtain ⟨leading, token⟩ := t
  -- The head is read from the token, or else it is empty and the keyword stands in front.
  cases hsign : Terminal.isPunctuator .atSign ⟨leading, token⟩ with
  | true =>
    have hattributes : ∀ l, attributes (⟨l, token⟩ :: ts) =
        attributes (⟨leading, token⟩ :: ts) := by
      intro l
      have hsign' : Terminal.isPunctuator .atSign ⟨l, token⟩ = true := hsign
      cases hread : attributeAfterSign token ts with
      | done a rest => rw [attributes_of_done hsign hread, attributes_of_done hsign' hread]
      | failed cause rest =>
        rw [attributes_of_failed hsign hread, attributes_of_failed hsign' hread]
    rw [declaration, declaration, declarationHead, declarationHead, hattributes leading']
  | false =>
    have hother (l : List Token) : attributes (⟨l, token⟩ :: ts) = .done [] (⟨l, token⟩ :: ts) :=
      attributes_of_other hsign
    cases hlevel : Terminal.accessLevel? ⟨leading, token⟩ with
    | some level =>
      have hmodifier : accessModifier (⟨leading, token⟩ :: ts) =
          accessModifier (⟨leading', token⟩ :: ts) := by
        have hlevel' : Terminal.accessLevel? ⟨leading', token⟩ = some level := hlevel
        rw [accessModifier, accessModifier, hlevel, hlevel']
        rfl
      rw [declaration, declaration, declarationHead, declarationHead, hother, hother,
        Reading.andThen, Reading.andThen, hmodifier]
    | none =>
      have hhead (l : List Token) :
          declarationHead (⟨l, token⟩ :: ts) = .done ⟨[], none⟩ (⟨l, token⟩ :: ts) := by
        have hlevel' : Terminal.accessLevel? ⟨l, token⟩ = none := hlevel
        rw [declarationHead, hother, Reading.andThen, accessModifier, hlevel']
        rfl
      have hafter : declarationAfter ⟨[], none⟩ (⟨leading, token⟩ :: ts) =
          declarationAfter ⟨[], none⟩ (⟨leading', token⟩ :: ts) := by
        cases henum : Terminal.isKeyword "enum" ⟨leading, token⟩ with
        | true => exact (if_pos henum).trans (if_pos henum).symm
        | false =>
          have himport : Terminal.isKeyword "import" ⟨leading, token⟩ = true := by
            simpa [Terminal.startsDeclaration, hsign, hlevel, henum] using h
          have henum' : ¬ Terminal.isKeyword "enum" ⟨leading, token⟩ = true := by simp [henum]
          exact ((if_neg henum').trans (if_pos himport)).trans
            ((if_neg henum').trans (if_pos himport)).symm
      rw [declaration, declaration, hhead, hhead]
      simp only [hafter]

/-- One step of parsing, at a terminal that can start no declaration. -/
theorem declarations_of_stray (hs : t.isPunctuator .semicolon = false)
    (h : t.startsDeclaration = false) (ts : List Terminal) :
    declarations stop (t :: ts) =
      .fail ⟨.unexpected .declaration (some t.token), t.range⟩
        (declarations stop (nextStart 0 ts)) := by
  have hread : (declaration (t :: ts)).reading = .unexpected .declaration (t :: ts) := by
    rw [declaration_of_stray h]
  rw [declarations_of_failed hs hread, declaration_of_stray h, resume,
    List.length_cons, if_neg (Nat.not_succ_le_self ts.length)]
  rfl

/-- **The parser does not see the trivia in front of a text.** -/
theorem declarations_addLeading (trivia : List Token) (terminals : List Terminal) :
    declarations stop (Terminal.addLeading trivia terminals) = declarations stop terminals := by
  rcases terminals with _ | ⟨t, ts⟩
  · rfl
  obtain ⟨leading, token⟩ := t
  change declarations stop (⟨trivia ++ leading, token⟩ :: ts) =
    declarations stop (⟨leading, token⟩ :: ts)
  cases hs : token.kind.isPunctuator .semicolon with
  | true =>
    have hs' (l : List Token) : Terminal.isPunctuator .semicolon ⟨l, token⟩ = true := hs
    rw [declarations_of_semicolon (hs' _), declarations_of_semicolon (hs' _)]
  | false =>
    have hs' (l : List Token) : Terminal.isPunctuator .semicolon ⟨l, token⟩ = false := hs
    cases hstart : Terminal.startsDeclaration ⟨leading, token⟩ with
    | false =>
      have hstart' (l : List Token) : Terminal.startsDeclaration ⟨l, token⟩ = false := hstart
      rw [declarations_of_stray (hs' _) (hstart' _), declarations_of_stray (hs' _) (hstart' _)]
      rfl
    | true =>
      have heq : declaration (⟨leading, token⟩ :: ts) =
          declaration (⟨trivia ++ leading, token⟩ :: ts) :=
        declaration_of_leading hstart _ ts
      cases hread : (declaration (⟨trivia ++ leading, token⟩ :: ts)).reading with
      | done d rest =>
        rw [declarations_of_done (hs' _) hread, declarations_of_done (hs' _) (by rw [heq, hread]),
          heq]
      | failed cause rest =>
        rw [declarations_of_failed (hs' _) hread,
          declarations_of_failed (hs' _) (by rw [heq, hread]), heq]

/-- Trivia in front of a file does not matter. -/
theorem declarations_dropLeading (terminals : List Terminal) :
    declarations stop (Terminal.dropLeading terminals) = declarations stop terminals := by
  obtain ⟨trivia, hadd, -⟩ := Terminal.exists_tokens_eq_append terminals
  rw [← declarations_addLeading trivia, hadd]

end Grammar

end DeclFront
