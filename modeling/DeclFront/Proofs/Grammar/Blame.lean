import DeclFront.Grammar.Declaration

/-!
# Proofs/Grammar/Blame — a rule blames the terminal that it stops at

Where a rule of the grammar fails it has found another terminal than it wants, or none, and stops in
front of it: that is the terminal to blame (`BlamesNext`).  One rule after another blames so if both
do.  The rule for attributes is the exception, since a clause without an end is all taken before
it fails; see `Proofs/Grammar/Unclosed`.
-/

namespace DeclFront.Grammar

variable {α β : Type}

/-- The reading is done, or it has failed for the terminal that is next, or for the end. -/
inductive BlamesNext : Reading α → Prop where
  | done (a : α) (rest : List Terminal) : BlamesNext (.done a rest)
  | unexpected (wanted : Expectation) (rest : List Terminal) :
      BlamesNext (.unexpected wanted rest)

namespace BlamesNext

variable {reading : Reading α} {cause : Cause} {rest : List Terminal}

theorem map (h : BlamesNext reading) (f : α → β) : BlamesNext (reading.map f) := by
  cases h with
  | done a rest => exact .done (f a) rest
  | unexpected wanted rest => exact .unexpected wanted rest

/-- **One rule after another blames the next terminal**, if each of them does. -/
theorem andThen {rule : α → List Terminal → Reading β} (h : BlamesNext reading)
    (hrule : ∀ a rest, BlamesNext (rule a rest)) : BlamesNext (reading.andThen rule) := by
  cases h with
  | done a rest => exact hrule a rest
  | unexpected wanted rest => exact .unexpected wanted rest

/-- What is blamed is the next terminal. -/
theorem exists_cause_eq (h : BlamesNext reading) (hread : reading = .failed cause rest) :
    ∃ wanted, cause = .unexpected wanted (rest.head?.map Terminal.token) := by
  cases h with
  | done a rest => cases hread
  | unexpected wanted rest =>
    obtain ⟨rfl, rfl⟩ := Reading.failed.inj hread
    exact ⟨wanted, rfl⟩

end BlamesNext

/-! ## The rules -/

theorem blamesNext_token (wanted : Expectation) (accepts : Terminal → Bool) (ts : List Terminal) :
    BlamesNext (token wanted accepts ts) := by
  rcases ts with _ | ⟨t, ts⟩
  · exact .unexpected _ _
  · rw [token]
    split
    · exact .done _ _
    · exact .unexpected _ _

theorem blamesNext_name (wanted : Expectation) (ts : List Terminal) :
    BlamesNext (name wanted ts) := by
  rcases ts with _ | ⟨t, ts⟩
  · exact .unexpected _ _
  · rw [name]
    split
    · exact .done _ _
    · exact .unexpected _ _

theorem blamesNext_names (separator : Punctuator) (wantedFirst wantedNext : Expectation)
    (ts : List Terminal) : BlamesNext (names separator wantedFirst wantedNext ts) := by
  refine (blamesNext_name _ _).andThen fun first rest => .map ?_ _
  fun_induction furtherNames separator wantedNext rest with
  | case1 => exact .done _ _
  | case2 => exact .unexpected _ _
  | case3 _ _ _ _ _ _ ih => exact ih.map _
  | case4 => exact .unexpected _ _
  | case5 => exact .done _ _

/-- Behind an access keyword, `set` and its closing parenthesis are blamed where they miss. -/
theorem blamesNext_accessModifier (ts : List Terminal) : BlamesNext (accessModifier ts) := by
  unfold accessModifier
  split
  · exact .done _ _
  · split
    · exact .done _ _
    · split
      · exact .done _ _
      · split
        · refine (blamesNext_token _ _ _).andThen fun _ rest => ?_
          exact (blamesNext_token _ _ _).map _
        · exact .done _ _

/-- A body blames the terminal that is neither a clause, a semicolon nor the closing brace. -/
theorem blamesNext_enumBody (ts : List Terminal) : BlamesNext (enumBody ts) := by
  fun_induction enumBody ts with
  | case1 => exact .unexpected _ _
  | case2 => exact .done _ _
  | case3 _ _ _ _ _ _ _ ih => exact ih.map _
  | case4 t ts _ _ cause rest hread =>
    have hcase : BlamesNext (enumCase t.token ts) := (blamesNext_names _ _ _ ts).map _
    obtain ⟨wanted, rfl⟩ := hcase.exists_cause_eq hread
    exact .unexpected wanted rest
  | case5 _ _ _ _ _ ih => exact ih
  | case6 => exact .unexpected _ _

/-- Behind its head, a declaration blames the next terminal. -/
theorem blamesNext_declarationAfter (head : DeclarationHead) (ts : List Terminal) :
    BlamesNext (declarationAfter head ts) := by
  unfold declarationAfter
  split
  · exact .unexpected _ _
  · split
    · refine ((blamesNext_name _ _).andThen fun _ _ => ?_).map _
      exact (blamesNext_token _ _ _).andThen fun _ rest => (blamesNext_enumBody rest).map _
    · split
      · exact ((blamesNext_names _ _ _ _).map _).map _
      · exact .unexpected _ _

end DeclFront.Grammar
