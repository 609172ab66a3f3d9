import DeclFront.Proofs.Grammar.Suffix

/-!
# Proofs/Grammar/Loop — parsing, turn by turn

    terminals ──turn──▸ rest ──turn──▸ … ──turn──▸ []

Parsing goes round a loop.  A *turn* takes a semicolon, or tries a declaration at the next terminal
and, when that fails, looks for where to go on.  The first turn can be taken out of a parse
(`declarations_cons`), so parsing comes through the states of `Reaches`, up to the one with all of
the outcome and no terminals left (`Reaches.ends`).  What holds at the start and is kept by a turn
holds in every one of them.
-/

namespace DeclFront

/-! ## One outcome behind another -/

/-- One outcome and then another. -/
def Outcome.followedBy (first second : Outcome) : Outcome :=
  ⟨⟨first.tree.declarations ++ second.tree.declarations⟩,
    ⟨first.diagnostics.diagnostics ++ second.diagnostics.diagnostics⟩,
    first.failures ++ second.failures⟩

namespace Outcome

theorem empty_followedBy (outcome : Outcome) : empty.followedBy outcome = outcome := rfl

theorem followedBy_empty (outcome : Outcome) : outcome.followedBy empty = outcome := by
  obtain ⟨⟨ds⟩, ⟨xs⟩, fs⟩ := outcome
  simp [followedBy, empty, EmptyCollection.emptyCollection, DiagnosticPool.empty]

/-- What comes of three parts does not depend on how they are joined. -/
theorem followedBy_assoc (first second third : Outcome) :
    (first.followedBy second).followedBy third = first.followedBy (second.followedBy third) := by
  simp [followedBy]

end Outcome

namespace Grammar

variable {stop : Location} {t : Terminal} {ts rest terminals : List Terminal} {added : Outcome}

/-! ## One turn -/

/-- What a turn adds to the outcome, and the terminals that it leaves. -/
structure Turn where
  added : Outcome
  rest : List Terminal

/-- The turn at a terminal, in a text that ends at `stop`. -/
def turn (stop : Location) (t : Terminal) (ts : List Terminal) : Turn :=
  if t.isPunctuator .semicolon then ⟨.empty, ts⟩
  else
    match (declaration (t :: ts)).reading with
    | .done d rest => ⟨⟨⟨[d]⟩, ⟨(declaration (t :: ts)).diagnostics⟩, []⟩, rest⟩
    | .failed cause rest =>
      ⟨⟨⟨[]⟩, ⟨(declaration (t :: ts)).diagnostics⟩, [.ofCause stop cause]⟩, resume ts rest⟩

theorem turn_of_semicolon (hs : t.isPunctuator .semicolon = true) :
    turn stop t ts = ⟨.empty, ts⟩ := if_pos hs

/-- A turn that reads a declaration adds it, with its diagnostics. -/
theorem turn_of_done {d : Declaration} (hs : t.isPunctuator .semicolon = false)
    (h : (declaration (t :: ts)).reading = .done d rest) :
    turn stop t ts = ⟨⟨⟨[d]⟩, ⟨(declaration (t :: ts)).diagnostics⟩, []⟩, rest⟩ := by
  rw [turn, if_neg (by simp [hs]), h]

/-- A turn that fails keeps the diagnostics of the attempt and adds the failure. -/
theorem turn_of_failed {cause : Cause} (hs : t.isPunctuator .semicolon = false)
    (h : (declaration (t :: ts)).reading = .failed cause rest) :
    turn stop t ts = ⟨⟨⟨[]⟩, ⟨(declaration (t :: ts)).diagnostics⟩, [.ofCause stop cause]⟩,
      resume ts rest⟩ := by
  rw [turn, if_neg (by simp [hs]), h]

/-- **All that a turn can do.** -/
theorem turn_cases (stop : Location) (t : Terminal) (ts : List Terminal) :
    (t.isPunctuator .semicolon = true ∧ turn stop t ts = ⟨.empty, ts⟩) ∨
      t.isPunctuator .semicolon = false ∧
        ((∃ d rest, (declaration (t :: ts)).reading = .done d rest ∧
            turn stop t ts =
              ⟨⟨⟨[d]⟩, ⟨(declaration (t :: ts)).diagnostics⟩, []⟩, rest⟩) ∨
          ∃ cause rest, (declaration (t :: ts)).reading = .failed cause rest ∧
            turn stop t ts = ⟨⟨⟨[]⟩, ⟨(declaration (t :: ts)).diagnostics⟩, [.ofCause stop cause]⟩,
              resume ts rest⟩) := by
  cases hs : t.isPunctuator .semicolon with
  | true => exact .inl ⟨rfl, turn_of_semicolon hs⟩
  | false =>
    cases h : (declaration (t :: ts)).reading with
    | done d rest => exact .inr ⟨rfl, .inl ⟨d, rest, rfl, turn_of_done hs h⟩⟩
    | failed cause rest => exact .inr ⟨rfl, .inr ⟨cause, rest, rfl, turn_of_failed hs h⟩⟩

/-- **A turn passes over a terminal at least.** -/
theorem turn_rest_suffix (stop : Location) (t : Terminal) (ts : List Terminal) :
    (turn stop t ts).rest <:+ ts := by
  have hrest := declaration_rest_suffix (t :: ts)
  rcases turn_cases stop t ts with
    ⟨-, hturn⟩ | ⟨-, ⟨d, rest, hread, hturn⟩ | ⟨cause, rest, hread, hturn⟩⟩
  · exact hturn ▸ List.suffix_rfl
  · rw [hread] at hrest
    rw [hturn]
    refine (List.suffix_cons_iff.1 hrest).resolve_left ?_
    rintro rfl
    exact Nat.lt_irrefl _ (length_lt_of_declaration hread)
  · rw [hread] at hrest
    rw [hturn]
    exact resume_suffix_others hrest

/-- **Parsing begins with a turn**, and goes on with what it leaves. -/
theorem declarations_cons (stop : Location) (t : Terminal) (ts : List Terminal) :
    declarations stop (t :: ts) =
      (turn stop t ts).added.followedBy (declarations stop (turn stop t ts).rest) := by
  rcases turn_cases stop t ts with
    ⟨hs, hturn⟩ | ⟨hs, ⟨d, rest, hread, hturn⟩ | ⟨cause, rest, hread, hturn⟩⟩
  · rw [hturn, declarations_of_semicolon hs, Outcome.empty_followedBy]
  · rw [hturn, declarations_of_done hs hread]
    rfl
  · rw [hturn, declarations_of_failed hs hread]
    rfl

/-! ## The states of the loop -/

/-- From `terminals` the loop comes to the terminals that are left, with the outcome so far. -/
inductive Reaches (stop : Location) (terminals : List Terminal) :
    (added : Outcome) → (rest : List Terminal) → Prop where
  | start : Reaches stop terminals .empty terminals
  | next {added : Outcome} {t : Terminal} {ts : List Terminal}
      (h : Reaches stop terminals added (t :: ts)) :
      Reaches stop terminals (added.followedBy (turn stop t ts).added) (turn stop t ts).rest

namespace Reaches

/-- The terminals left are the last ones. -/
theorem suffix (h : Reaches stop terminals added rest) : rest <:+ terminals := by
  induction h with
  | start => exact List.suffix_rfl
  | @next added t ts h ih =>
    exact ((turn_rest_suffix stop t ts).trans (List.suffix_cons t ts)).trans ih

/-- **What is left is parsed as if it stood alone**, behind what there is. -/
theorem declarations_eq (h : Reaches stop terminals added rest) :
    declarations stop terminals = added.followedBy (declarations stop rest) := by
  induction h with
  | start => exact (Outcome.empty_followedBy _).symm
  | @next added t ts h ih => rw [ih, declarations_cons, Outcome.followedBy_assoc]

/-- From every state that the loop reaches it goes on to the end. -/
theorem ends_of_reaches (h : Reaches stop terminals added rest) :
    Reaches stop terminals (added.followedBy (declarations stop rest)) [] := by
  induction hn : rest.length using Nat.strongRecOn generalizing added rest with
  | _ n ih =>
    subst hn
    rcases rest with _ | ⟨t, ts⟩
    · rwa [declarations, Outcome.followedBy_empty]
    · have hlength := Nat.lt_succ_of_le (turn_rest_suffix stop t ts).length_le
      rw [declarations_cons, ← Outcome.followedBy_assoc]
      exact ih _ hlength h.next rfl

/-- **The loop ends with no terminals left**, and the outcome is that of the parse. -/
theorem ends (stop : Location) (terminals : List Terminal) :
    Reaches stop terminals (declarations stop terminals) [] := by
  have h := ends_of_reaches (.start : Reaches stop terminals .empty terminals)
  rwa [Outcome.empty_followedBy] at h

/-- **Whatever has come of the loop was added by one of its turns.**  `part` is a list in the
outcome: the declarations, the diagnostics or the failures. -/
theorem exists_turn_of_mem {α : Type} (part : Outcome → List α) (hempty : part .empty = [])
    (happend : ∀ first second, part (first.followedBy second) = part first ++ part second)
    (h : Reaches stop terminals added rest) {x : α} (hx : x ∈ part added) :
    ∃ before t ts, Reaches stop terminals before (t :: ts) ∧ x ∈ part (turn stop t ts).added := by
  induction h with
  | start =>
    rw [hempty] at hx
    cases hx
  | @next added t ts h ih =>
    rw [happend] at hx
    rcases List.mem_append.1 hx with hx | hx
    · exact ih hx
    · exact ⟨added, t, ts, h, hx⟩

/-- **What a turn adds is in the outcome of the parse.** -/
theorem mem_of_turn {α : Type} (part : Outcome → List α)
    (happend : ∀ first second, part (first.followedBy second) = part first ++ part second)
    (h : Reaches stop terminals added (t :: ts)) {x : α} (hx : x ∈ part (turn stop t ts).added) :
    x ∈ part (declarations stop terminals) := by
  rw [h.next.declarations_eq, happend, happend]
  exact List.mem_append_left _ (List.mem_append_right _ hx)

end Reaches

/-! ## Where what comes of a parse was added -/

/-- A declaration of a parse was read in one of the turns. -/
theorem exists_done_of_mem_declarations {d : Declaration}
    (hd : d ∈ (declarations stop terminals).tree.declarations) :
    ∃ added t ts rest, Reaches stop terminals added (t :: ts) ∧
      (declaration (t :: ts)).reading = .done d rest := by
  obtain ⟨added, t, ts, h, hadded⟩ :=
    (Reaches.ends stop terminals).exists_turn_of_mem (·.tree.declarations) rfl (fun _ _ => rfl) hd
  rcases turn_cases stop t ts with
    ⟨-, hturn⟩ | ⟨-, ⟨e, rest, hread, hturn⟩ | ⟨cause, rest, -, hturn⟩⟩
  · rw [hturn] at hadded
    cases hadded
  · rw [hturn] at hadded
    obtain rfl := List.mem_singleton.1 hadded
    exact ⟨added, t, ts, rest, h, hread⟩
  · rw [hturn] at hadded
    cases hadded

/-- A failure of a parse is that of the attempt in one of the turns. -/
theorem exists_failed_of_mem_failures {f : Failure}
    (hf : f ∈ (declarations stop terminals).failures) :
    ∃ added t ts cause rest, Reaches stop terminals added (t :: ts) ∧
      (declaration (t :: ts)).reading = .failed cause rest ∧ f = .ofCause stop cause := by
  obtain ⟨added, t, ts, h, hadded⟩ :=
    (Reaches.ends stop terminals).exists_turn_of_mem Outcome.failures rfl (fun _ _ => rfl) hf
  rcases turn_cases stop t ts with
    ⟨-, hturn⟩ | ⟨-, ⟨d, rest, -, hturn⟩ | ⟨cause, rest, hread, hturn⟩⟩
  · rw [hturn] at hadded
    cases hadded
  · rw [hturn] at hadded
    cases hadded
  · rw [hturn] at hadded
    exact ⟨added, t, ts, cause, rest, h, hread, List.mem_singleton.1 hadded⟩

end Grammar

end DeclFront
