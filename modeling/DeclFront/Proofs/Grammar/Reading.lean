import DeclFront.Grammar.Reading
import DeclFront.Proofs.Grammar.Derivation

/-!
# Proofs/Grammar/Reading — what the rules for terminals and names read

A rule reads a value off a list of terminals exactly when the list begins with the yield of a tree,
the value is the one that the tree derives, and what follows cannot continue the tree.  The
`_eq_done_iff` lemmas say so, one for each rule, here and in `Proofs/Grammar/Head` and
`Proofs/Grammar/Declaration`; each makes its rule sound and complete at once.
-/

namespace DeclFront.Grammar

/-- The list begins with a terminal that is accepted. -/
def Begins (accepts : Terminal → Bool) (terminals : List Terminal) : Prop :=
  ∃ t ts, terminals = t :: ts ∧ accepts t = true

@[simp] theorem not_begins_nil (accepts : Terminal → Bool) : ¬ Begins accepts [] := by
  rintro ⟨t, ts, h, -⟩
  cases h

@[simp] theorem begins_cons_iff {accepts : Terminal → Bool} {t : Terminal} {ts : List Terminal} :
    Begins accepts (t :: ts) ↔ accepts t = true := by
  constructor
  · rintro ⟨_, _, h, ht⟩
    cases h
    exact ht
  · exact fun ht => ⟨t, ts, rfl, ht⟩

variable {terminals rest : List Terminal}

/-! ## Single terminals -/

/-- A token is read just where the first terminal is of the wanted sort. -/
theorem token_eq_done_iff {wanted : Expectation} {accepts : Terminal → Bool} {t : Token} :
    token wanted accepts terminals = .done t rest ↔
      ∃ u, accepts u = true ∧ terminals = u :: rest ∧ t = u.token := by
  rcases terminals with _ | ⟨u, us⟩
  · simp [token, Reading.unexpected]
  rw [token]
  by_cases hu : accepts u = true
  · rw [if_pos hu]
    constructor
    · rintro ⟨⟩
      exact ⟨u, hu, rfl, rfl⟩
    · rintro ⟨v, -, h, rfl⟩
      obtain ⟨rfl, rfl⟩ := List.cons.inj h
      rfl
  · rw [if_neg hu]
    constructor
    · intro h
      cases h
    · rintro ⟨v, hv, h, -⟩
      obtain ⟨rfl, -⟩ := List.cons.inj h
      exact absurd hv hu

/-- Terminals that give names are the leaves of names. -/
theorem name?_eq_some_iff {t : Terminal} {n : Name} :
    t.name? = some n ↔ ∃ leaf : NameLeaf, t = leaf.terminal ∧ n = leaf.name := by
  rw [Terminal.name?, Option.map_eq_some_iff]
  constructor
  · rintro ⟨text, htext, rfl⟩
    exact ⟨⟨t, text, htext⟩, rfl, rfl⟩
  · rintro ⟨leaf, rfl, rfl⟩
    exact ⟨leaf.text, leaf.name?_eq, rfl⟩

@[simp] theorem NameLeaf.name?_terminal (leaf : NameLeaf) : leaf.terminal.name? = some leaf.name :=
  name?_eq_some_iff.2 ⟨leaf, rfl, rfl⟩

/-- A name is read just where a leaf of one stands first. -/
theorem name_eq_done_iff {wanted : Expectation} {n : Name} :
    name wanted terminals = .done n rest ↔
      ∃ leaf : NameLeaf, terminals = leaf.terminal :: rest ∧ n = leaf.name := by
  cases terminals with
  | nil => simp [name, Reading.unexpected]
  | cons t ts =>
    rw [name]
    split
    · rename_i m hm
      obtain ⟨leaf, rfl, rfl⟩ := name?_eq_some_iff.1 hm
      constructor
      · intro h
        cases h
        exact ⟨leaf, rfl, rfl⟩
      · rintro ⟨leaf', h, rfl⟩
        obtain ⟨hterminal, rfl⟩ := List.cons.inj h
        have := leaf'.name?_terminal
        rw [← hterminal, hm] at this
        rw [Option.some.inj this]
    · rename_i hm
      constructor
      · intro h
        cases h
      · rintro ⟨leaf, h, -⟩
        rw [(List.cons.inj h).1, leaf.name?_terminal] at hm
        cases hm

/-! ## Lists of names -/

section Names

variable {separator : Punctuator}

@[simp] theorem yieldOthers_nil : yieldOthers ([] : List (Mark separator × NameLeaf)) = [] := rfl

@[simp] theorem yieldOthers_cons (mark : Mark separator) (leaf : NameLeaf)
    (others : List (Mark separator × NameLeaf)) :
    yieldOthers ((mark, leaf) :: others) = mark.terminal :: leaf.terminal :: yieldOthers others :=
  rfl

/-- Names behind separators are read up to the first terminal that is no separator. -/
theorem furtherNames_eq_done_iff {wanted : Expectation} {ns : List Name} :
    furtherNames separator wanted terminals = .done ns rest ↔
      ∃ others : List (Mark separator × NameLeaf),
        terminals = yieldOthers others ++ rest ∧ ns = others.map (fun (_, leaf) => leaf.name) ∧
          ¬ Begins (·.isPunctuator separator) rest := by
  constructor
  · intro h
    fun_induction furtherNames separator wanted terminals generalizing ns with
    | case1 =>
      cases h
      exact ⟨[], rfl, rfl, by simp⟩
    | case2 => cases h
    | case3 t ht u us name hname ih =>
      obtain ⟨tail, htail, rfl⟩ := Reading.map_eq_done_iff.1 h
      obtain ⟨others, rfl, rfl, hrest⟩ := ih htail
      obtain ⟨leaf, rfl, rfl⟩ := name?_eq_some_iff.1 hname
      exact ⟨(⟨t, ht⟩, leaf) :: others, rfl, rfl, hrest⟩
    | case4 => cases h
    | case5 t ts ht =>
      cases h
      exact ⟨[], rfl, rfl, by simpa using ht⟩
  · rintro ⟨others, rfl, rfl, hrest⟩
    induction others with
    | nil =>
      cases rest with
      | nil => rfl
      | cons t ts =>
        rw [begins_cons_iff] at hrest
        rw [yieldOthers_nil, List.nil_append, furtherNames.eq_def]
        exact if_neg hrest
    | cons other others ih =>
      obtain ⟨mark, leaf⟩ := other
      rw [yieldOthers_cons, List.cons_append, List.cons_append, furtherNames.eq_def]
      simp only [mark.isPunctuator, if_true, NameLeaf.name?_terminal]
      rw [ih]
      rfl

/-- **A list of names is read just where a tree of one stands**, and it is the longest. -/
theorem names_eq_done_iff {wantedFirst wantedNext : Expectation} {ns : Names} :
    names separator wantedFirst wantedNext terminals = .done ns rest ↔
      ∃ tree : NamesTree separator, terminals = tree.yield ++ rest ∧
        ns = ⟨tree.first.name, tree.others.map fun (_, leaf) => leaf.name⟩ ∧
          ¬ Begins (·.isPunctuator separator) rest := by
  rw [names, Reading.andThen_eq_done_iff]
  simp only [Reading.map_eq_done_iff, name_eq_done_iff, furtherNames_eq_done_iff]
  constructor
  · rintro ⟨_, _, ⟨leaf, rfl, rfl⟩, _, ⟨others, rfl, rfl, hrest⟩, rfl⟩
    exact ⟨⟨leaf, others⟩, rfl, rfl, hrest⟩
  · rintro ⟨⟨leaf, others⟩, rfl, rfl, hrest⟩
    exact ⟨_, _, ⟨leaf, rfl, rfl⟩, _, ⟨others, rfl, rfl, hrest⟩, rfl⟩

end Names

end DeclFront.Grammar
