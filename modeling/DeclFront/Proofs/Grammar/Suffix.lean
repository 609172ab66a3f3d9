import DeclFront.Grammar.Outcome

/-!
# Proofs/Grammar/Suffix — what a rule leaves is the end of what it was given

Each rule of the grammar takes terminals off the front, whether it reads a value or fails; so what a
failed declaration leaves begins where it failed (`declaration_rest_suffix`).
-/

namespace DeclFront

variable {terminals : List Terminal}

namespace Reading

variable {α β : Type} {reading : Reading α}

@[simp] theorem rest_done (value : α) (rest : List Terminal) : (done value rest).rest = rest := rfl

@[simp] theorem rest_failed (cause : Cause) (rest : List Terminal) :
    (failed cause rest : Reading α).rest = rest := rfl

@[simp] theorem rest_map (f : α → β) (reading : Reading α) :
    (reading.map f).rest = reading.rest := by
  cases reading <;> rfl

/-- **One rule after another leaves a suffix**, when each leaves one. -/
theorem rest_andThen_suffix {rule : α → List Terminal → Reading β}
    (h : reading.rest <:+ terminals) (hrule : ∀ a rest, (rule a rest).rest <:+ rest) :
    (reading.andThen rule).rest <:+ terminals := by
  cases reading with
  | done value rest => exact (hrule value rest).trans h
  | failed cause rest => exact h

end Reading

namespace Grammar

theorem token_rest_suffix (wanted : Expectation) (accepts : Terminal → Bool)
    (terminals : List Terminal) : (token wanted accepts terminals).rest <:+ terminals := by
  rcases terminals with _ | ⟨t, ts⟩
  · exact List.suffix_rfl
  · rw [token]
    split
    · exact List.suffix_cons t ts
    · exact List.suffix_rfl

theorem name_rest_suffix (wanted : Expectation) (terminals : List Terminal) :
    (name wanted terminals).rest <:+ terminals := by
  rcases terminals with _ | ⟨t, ts⟩
  · exact List.suffix_rfl
  · rw [name]
    split
    · exact List.suffix_cons t ts
    · exact List.suffix_rfl

theorem furtherNames_rest_suffix (separator : Punctuator) (wanted : Expectation)
    (terminals : List Terminal) :
    (furtherNames separator wanted terminals).rest <:+ terminals := by
  fun_induction furtherNames separator wanted terminals with
  | case1 => exact List.suffix_rfl
  | case2 => exact List.nil_suffix
  | case3 t _ u us _ _ ih =>
    rw [Reading.rest_map]
    exact (ih.trans (List.suffix_cons u us)).trans (List.suffix_cons t _)
  | case4 t _ u us => exact List.suffix_cons t (u :: us)
  | case5 => exact List.suffix_rfl

theorem names_rest_suffix (separator : Punctuator) (wantedFirst wantedNext : Expectation)
    (terminals : List Terminal) :
    (names separator wantedFirst wantedNext terminals).rest <:+ terminals := by
  refine Reading.rest_andThen_suffix (name_rest_suffix _ _) fun first rest => ?_
  rw [Reading.rest_map]
  exact furtherNames_rest_suffix _ _ _

/-! ## The head -/

theorem ArgumentClause.rest_suffix_of_read {depth : Nat} {clause : ArgumentClause}
    (h : read depth terminals = some clause) : clause.rest <:+ terminals := by
  induction terminals generalizing depth clause with
  | nil => cases h
  | cons t ts ih =>
    have step {d : Nat} (h : (read d ts).map (cons t) = some clause) :
        clause.rest <:+ t :: ts := by
      obtain ⟨inner, hinner, rfl⟩ := Option.map_eq_some_iff.1 h
      exact (@ih d inner hinner).trans (List.suffix_cons t ts)
    rw [read] at h
    split at h
    · exact step h
    · split at h
      · split at h
        · obtain rfl := Option.some.inj h
          exact List.suffix_cons t ts
        · exact step h
      · exact step h

theorem attributeAfterSign_rest_suffix (sign : Token) (terminals : List Terminal) :
    (attributeAfterSign sign terminals).rest <:+ terminals := by
  refine Reading.rest_andThen_suffix (name_rest_suffix _ _) fun name rest => ?_
  rcases rest with _ | ⟨t, ts⟩
  · exact List.suffix_rfl
  · dsimp only
    split
    · split
      · rename_i clause hclause
        exact (ArgumentClause.rest_suffix_of_read hclause).trans (List.suffix_cons t ts)
      · exact List.nil_suffix
    · exact List.suffix_rfl

theorem attributes_rest_suffix (terminals : List Terminal) :
    (attributes terminals).rest <:+ terminals := by
  fun_induction attributes terminals with
  | case1 => exact List.suffix_rfl
  | case2 t ts _ a middle hattribute ih =>
    have hmiddle := attributeAfterSign_rest_suffix t.token ts
    rw [hattribute] at hmiddle
    rw [Reading.rest_map]
    exact (ih.trans hmiddle).trans (List.suffix_cons t ts)
  | case3 t ts _ cause middle hattribute =>
    have hmiddle := attributeAfterSign_rest_suffix t.token ts
    rw [hattribute] at hmiddle
    exact hmiddle.trans (List.suffix_cons t ts)
  | case4 => exact List.suffix_rfl

/-- A sign is taken, whatever follows it. -/
theorem attributes_rest_suffix_of_sign {t : Terminal} (h : t.isPunctuator .atSign = true)
    (ts : List Terminal) : (attributes (t :: ts)).rest <:+ ts := by
  have hmiddle := attributeAfterSign_rest_suffix t.token ts
  cases hread : attributeAfterSign t.token ts with
  | done a middle =>
    rw [hread] at hmiddle
    rw [attributes_of_done h hread, Reading.rest_map]
    exact (attributes_rest_suffix middle).trans hmiddle
  | failed cause middle =>
    rw [hread] at hmiddle
    rw [attributes_of_failed h hread]
    exact hmiddle

/-- An access keyword is taken, whatever follows it. -/
theorem accessModifier_rest_suffix_of_level {t : Terminal} {level : AccessLevel}
    (h : t.accessLevel? = some level) (ts : List Terminal) :
    (accessModifier (t :: ts)).rest <:+ ts := by
  rw [accessModifier, h]
  rcases ts with _ | ⟨u, us⟩
  · exact List.nil_suffix
  · dsimp only
    split
    · refine List.IsSuffix.trans ?_ (List.suffix_cons u us)
      refine Reading.rest_andThen_suffix (token_rest_suffix _ _ _) fun _ rest => ?_
      rw [Reading.rest_map]
      exact token_rest_suffix _ _ _
    · exact List.suffix_rfl

theorem accessModifier_rest_suffix (terminals : List Terminal) :
    (accessModifier terminals).rest <:+ terminals := by
  rcases terminals with _ | ⟨t, ts⟩
  · exact List.suffix_rfl
  · cases hlevel : t.accessLevel? with
    | none =>
      rw [accessModifier, hlevel]
      exact List.suffix_rfl
    | some level =>
      exact (accessModifier_rest_suffix_of_level hlevel ts).trans (List.suffix_cons t ts)

theorem declarationHead_rest_suffix (terminals : List Terminal) :
    (declarationHead terminals).rest <:+ terminals := by
  refine Reading.rest_andThen_suffix (attributes_rest_suffix _) fun _ rest => ?_
  rw [Reading.rest_map]
  exact accessModifier_rest_suffix _

/-! ## Bodies and declarations -/

theorem enumCase_rest_suffix (keyword : Token) (terminals : List Terminal) :
    (enumCase keyword terminals).rest <:+ terminals := by
  rw [enumCase, Reading.rest_map]
  exact names_rest_suffix _ _ _ _

theorem enumBody_rest_suffix (terminals : List Terminal) :
    (enumBody terminals).rest <:+ terminals := by
  fun_induction enumBody terminals with
  | case1 => exact List.suffix_rfl
  | case2 t ts => exact List.suffix_cons t ts
  | case3 t ts _ _ clause middle hclause ih =>
    have hmiddle := enumCase_rest_suffix t.token ts
    rw [hclause] at hmiddle
    rw [Reading.rest_map]
    exact (ih.trans hmiddle).trans (List.suffix_cons t ts)
  | case4 t ts _ _ cause middle hclause =>
    have hmiddle := enumCase_rest_suffix t.token ts
    rw [hclause] at hmiddle
    exact hmiddle.trans (List.suffix_cons t ts)
  | case5 t ts _ _ _ ih => exact ih.trans (List.suffix_cons t ts)
  | case6 => exact List.suffix_rfl

theorem enumeration_rest_suffix (terminals : List Terminal) :
    (enumeration terminals).rest <:+ terminals := by
  refine Reading.rest_andThen_suffix (name_rest_suffix _ _) fun _ rest => ?_
  refine Reading.rest_andThen_suffix (token_rest_suffix _ _ _) fun _ rest => ?_
  rw [Reading.rest_map]
  exact enumBody_rest_suffix _

/-- The keyword of a declaration is taken, whatever follows it. -/
theorem declarationAfter_rest_suffix_of_keyword (head : DeclarationHead) {t : Terminal}
    (h : t.isKeyword "enum" = true ∨ t.isKeyword "import" = true) (ts : List Terminal) :
    (declarationAfter head (t :: ts)).rest <:+ ts := by
  rw [declarationAfter]
  split
  · rw [Reading.rest_map]
    exact enumeration_rest_suffix ts
  · rename_i hother
    rw [if_pos (h.resolve_left hother), Reading.rest_map, importing, Reading.rest_map]
    exact names_rest_suffix _ _ _ ts

theorem declarationAfter_rest_suffix (head : DeclarationHead) (terminals : List Terminal) :
    (declarationAfter head terminals).rest <:+ terminals := by
  rcases terminals with _ | ⟨t, ts⟩
  · exact List.suffix_rfl
  by_cases h : t.isKeyword "enum" = true ∨ t.isKeyword "import" = true
  · exact (declarationAfter_rest_suffix_of_keyword head h ts).trans (List.suffix_cons t ts)
  · rw [not_or] at h
    rw [declarationAfter, if_neg h.1, if_neg h.2]
    exact List.suffix_rfl

/-- The rule for declarations goes on where the head ends. -/
theorem declaration_rest_suffix_head (terminals : List Terminal) :
    (declaration terminals).reading.rest <:+ (declarationHead terminals).rest := by
  unfold declaration
  split
  · rename_i head middle h
    rw [h]
    exact declarationAfter_rest_suffix head middle
  · rename_i cause middle h
    rw [h]
    exact List.suffix_rfl

/-- **A declaration, read or failed, leaves the end of the terminals.** -/
theorem declaration_rest_suffix (terminals : List Terminal) :
    (declaration terminals).reading.rest <:+ terminals :=
  (declaration_rest_suffix_head terminals).trans (declarationHead_rest_suffix terminals)

/-- **A terminal that can start a declaration is taken**, also when the declaration fails. -/
theorem declaration_rest_suffix_of_start {t : Terminal} (h : t.startsDeclaration = true)
    (ts : List Terminal) : (declaration (t :: ts)).reading.rest <:+ ts := by
  cases hsign : t.isPunctuator .atSign with
  | true =>
    refine (declaration_rest_suffix_head _).trans ?_
    refine Reading.rest_andThen_suffix (attributes_rest_suffix_of_sign hsign ts) fun _ rest => ?_
    rw [Reading.rest_map]
    exact accessModifier_rest_suffix rest
  | false =>
    cases hlevel : t.accessLevel? with
    | some level =>
      refine (declaration_rest_suffix_head _).trans ?_
      rw [declarationHead, attributes_of_other hsign, Reading.andThen, Reading.rest_map]
      exact accessModifier_rest_suffix_of_level hlevel ts
    | none =>
      -- The head is empty, so that the keyword of the body stands in front.
      have hhead : declarationHead (t :: ts) = .done ⟨[], none⟩ (t :: ts) := by
        rw [declarationHead, attributes_of_other hsign, Reading.andThen, accessModifier, hlevel]
        rfl
      have hkeyword : t.isKeyword "enum" = true ∨ t.isKeyword "import" = true := by
        simpa [Terminal.startsDeclaration, hsign, hlevel] using h
      rw [declaration, hhead]
      exact declarationAfter_rest_suffix_of_keyword _ hkeyword ts

/-! ## Going on after a failure -/

/-- Looking for a start only drops terminals at the front. -/
theorem nextStart_suffix (depth : Int) (ts : List Terminal) : nextStart depth ts <:+ ts := by
  fun_induction nextStart depth ts with
  | case1 => exact List.suffix_rfl
  | case2 _ t ts _ ih => exact ih.trans (List.suffix_cons t ts)
  | case3 _ t ts _ _ ih => exact ih.trans (List.suffix_cons t ts)
  | case4 => exact List.suffix_rfl
  | case5 _ t ts _ _ _ ih => exact ih.trans (List.suffix_cons t ts)

section Resume

variable {t : Terminal} {ts rest : List Terminal}

/-- Where parsing goes on, the first terminal of the failed declaration is passed over. -/
theorem resume_suffix_others (h : rest <:+ t :: ts) : resume ts rest <:+ ts := by
  rw [resume]
  split
  · rename_i hlength
    refine (nextStart_suffix 0 rest).trans ?_
    refine (List.suffix_cons_iff.1 h).resolve_left ?_
    rintro rfl
    exact absurd hlength (Nat.not_succ_le_self _)
  · exact nextStart_suffix 0 ts

/-- Parsing goes on where the declaration has failed, or behind. -/
theorem resume_suffix_rest (h : rest <:+ t :: ts) : resume ts rest <:+ rest := by
  rcases List.suffix_cons_iff.1 h with rfl | hsuffix
  · exact (resume_suffix_others h).trans (List.suffix_cons t ts)
  · rw [resume, if_pos hsuffix.length_le]
    exact nextStart_suffix 0 rest

end Resume

end Grammar

end DeclFront
