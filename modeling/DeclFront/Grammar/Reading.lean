import DeclFront.Grammar.Failure
import DeclFront.Grammar.Terminal

/-!
# Grammar/Reading — what a rule of the grammar makes of a list of terminals

A rule reads a value off the front of a list of terminals, or fails at some terminal of it; either
way the reading tells which terminals are left. This module has the rules for one token, for one
name and for a list of names.
-/

namespace DeclFront

/-- What a rule makes of a list of terminals; `rest` is what it leaves. -/
inductive Reading (α : Type) where
  | done (value : α) (rest : List Terminal)
  | failed (cause : Cause) (rest : List Terminal)
deriving DecidableEq, Repr

namespace Reading

variable {α β : Type}

/-- Changes the value that was read. -/
def map (f : α → β) : Reading α → Reading β
  | done value rest => done (f value) rest
  | failed cause rest => failed cause rest

/-- A rule, and then another on the terminals that it leaves. -/
def andThen (reading : Reading α) (rule : α → List Terminal → Reading β) : Reading β :=
  match reading with
  | done value rest => rule value rest
  | failed cause rest => failed cause rest

/-- The terminals left. -/
def rest : Reading α → List Terminal
  | done _ rest => rest
  | failed _ rest => rest

/-- A changed value comes from a value, behind which the same is left. -/
theorem map_eq_done_iff {f : α → β} {reading : Reading α} {b : β} {rest : List Terminal} :
    reading.map f = done b rest ↔ ∃ a, reading = done a rest ∧ f a = b := by
  cases reading <;> grind [map]

/-- Two rules succeed together when the second does on what the first leaves. -/
theorem andThen_eq_done_iff {reading : Reading α} {rule : α → List Terminal → Reading β} {b : β}
    {rest : List Terminal} :
    reading.andThen rule = done b rest ↔
      ∃ a middle, reading = done a middle ∧ rule a middle = done b rest := by
  cases reading <;> grind [andThen]

/-- The failure to find something at the front of a list of terminals. -/
def unexpected (wanted : Expectation) (terminals : List Terminal) : Reading α :=
  failed (.unexpected wanted (terminals.head?.map Terminal.token)) terminals

end Reading

namespace Grammar

/-- One token of a kind. -/
def token (wanted : Expectation) (accepts : Terminal → Bool) : List Terminal → Reading Token
  | [] => .unexpected wanted []
  | t :: ts => if accepts t then .done t.token ts else .unexpected wanted (t :: ts)

/-- One name. -/
def name (wanted : Expectation) : List Terminal → Reading Name
  | [] => .unexpected wanted []
  | t :: ts =>
    match t.name? with
    | some name => .done name ts
    | none => .unexpected wanted (t :: ts)

/-- As many names as there are separators, each name after one. -/
def furtherNames (separator : Punctuator) (wanted : Expectation) :
    List Terminal → Reading (List Name)
  | [] => .done [] []
  | t :: ts =>
    if t.isPunctuator separator then
      match ts with
      | [] => .unexpected wanted []
      | u :: us =>
        match u.name? with
        | some name => (furtherNames separator wanted us).map (name :: ·)
        | none => .unexpected wanted (u :: us)
    else .done [] (t :: ts)

/-- One name or more. -/
structure Names where
  first : Name
  others : List Name

namespace Names

/-- All names, in order. -/
def toList (names : Names) : List Name := names.first :: names.others

/-- The name that ends the list. -/
def last (names : Names) : Name := names.others.getLast?.getD names.first

end Names

/-- Names with separators between them. -/
def names (separator : Punctuator) (wantedFirst wantedNext : Expectation)
    (terminals : List Terminal) : Reading Names :=
  (name wantedFirst terminals).andThen fun first rest =>
    (furtherNames separator wantedNext rest).map (⟨first, ·⟩)

section Length

variable {terminals rest : List Terminal}

/-- A token that was read is gone from what is left. -/
theorem length_lt_of_token {wanted : Expectation} {accepts : Terminal → Bool} {t : Token}
    (h : token wanted accepts terminals = .done t rest) : rest.length < terminals.length := by
  cases terminals with
  | nil => cases h
  | cons u us =>
    rw [token] at h
    split at h <;> cases h
    simp

theorem length_lt_of_name {wanted : Expectation} {n : Name}
    (h : name wanted terminals = .done n rest) : rest.length < terminals.length := by
  cases terminals with
  | nil => cases h
  | cons t ts =>
    rw [name] at h
    split at h <;> cases h
    simp

/-- There may be no further name, so nothing need be read. -/
theorem length_le_of_furtherNames {separator : Punctuator} {wanted : Expectation} {ns : List Name}
    (h : furtherNames separator wanted terminals = .done ns rest) :
    rest.length ≤ terminals.length := by
  fun_induction furtherNames separator wanted terminals generalizing ns with
  | case1 => cases h; exact Nat.le_refl _
  | case2 => cases h
  | case3 t ht u us name hname ih =>
    obtain ⟨tail, htail, -⟩ := Reading.map_eq_done_iff.1 h
    have := ih htail
    simp only [List.length_cons]
    omega
  | case4 => cases h
  | case5 => cases h; exact Nat.le_refl _

theorem length_lt_of_names {separator : Punctuator} {wantedFirst wantedNext : Expectation}
    {ns : Names} (h : names separator wantedFirst wantedNext terminals = .done ns rest) :
    rest.length < terminals.length := by
  obtain ⟨first, middle, hfirst, h⟩ := Reading.andThen_eq_done_iff.1 h
  obtain ⟨others, hothers, -⟩ := Reading.map_eq_done_iff.1 h
  exact Nat.lt_of_le_of_lt (length_le_of_furtherNames hothers) (length_lt_of_name hfirst)

end Length

end Grammar

end DeclFront
