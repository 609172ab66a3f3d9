import DeclFront.Proofs.Grammar.Declaration
import DeclFront.Proofs.Grammar.Leading
import DeclFront.Proofs.Grammar.Loop

/-!
# Proofs/Progress — every turn of the loop takes something

The loop asks of a terminal whether a declaration can start there only after a failure, and the rule
for declarations never asks.  Still the two agree: an attempt takes a terminal exactly where one can
start, and fails at once everywhere else (`exists_taken_eq`, `declaration_of_not_begins`).  So no
turn leaves all of the terminals, and one that adds a declaration takes two of them at least.
Counting them over all turns bounds what a parse can give (`Reaches.two_mul_add_le`).
-/

namespace DeclFront

open Grammar

namespace Grammar

variable {stop : Location} {t : Terminal} {ts rest terminals : List Terminal} {added : Outcome}

/-! ## One attempt -/

/-- Where no declaration can start, an attempt fails at once. -/
theorem declaration_of_not_begins (h : ¬ Begins Terminal.startsDeclaration terminals) :
    declaration terminals = ⟨[], .unexpected .declaration terminals⟩ := by
  rcases terminals with _ | ⟨t, ts⟩
  · rw [declaration, declarationHead, attributes]
    rfl
  · exact declaration_of_stray (by simpa using h) ts

/-- **An attempt takes a terminal exactly where a declaration can start.** -/
theorem exists_taken_eq (terminals : List Terminal) :
    ∃ taken, terminals = taken ++ (declaration terminals).reading.rest ∧
      (taken ≠ [] ↔ Begins Terminal.startsDeclaration terminals) := by
  by_cases h : Begins Terminal.startsDeclaration terminals
  · obtain ⟨t, ts, rfl, ht⟩ := h
    obtain ⟨taken, htaken⟩ := declaration_rest_suffix_of_start ht ts
    refine ⟨t :: taken, congrArg (t :: ·) htaken.symm, ?_⟩
    exact iff_of_true (List.cons_ne_nil t taken) (begins_cons_iff.2 ht)
  · refine ⟨[], ?_, iff_of_false (fun hne => hne rfl) h⟩
    rw [declaration_of_not_begins h]
    rfl

/-- Where no declaration can start, one is expected. -/
theorem message_of_not_begins (h : ¬ Begins Terminal.startsDeclaration terminals) :
    ∃ cause, (declaration terminals).reading = .failed cause terminals ∧
      cause.message = "Expected declaration, found " ++
        (terminals.head?.map (·.token.kind.description)).getD "end of file" := by
  refine ⟨_, congrArg DeclarationAttempt.reading (declaration_of_not_begins h), ?_⟩
  rcases terminals with _ | ⟨t, ts⟩ <;> rfl

/-- What is declared has a keyword and a name. -/
theorem BodyTree.two_le_length_yield (tree : BodyTree) : 2 ≤ tree.yield.length := by
  rcases tree with tree | tree
  · simp only [yield, EnumerationTree.yield, List.length_cons]
    omega
  · simp only [yield, ImportTree.yield, NamesTree.yield, List.length_cons]
    omega

/-- A declaration that is read takes its keyword and a name. -/
theorem length_add_two_le_of_declaration {d : Declaration}
    (h : (declaration terminals).reading = .done d rest) : rest.length + 2 ≤ terminals.length := by
  obtain ⟨tree, rfl, -, -⟩ := exists_tree_of_declaration h
  have hbody := tree.body.two_le_length_yield
  rw [DeclarationTree.yield, List.length_append, List.length_append]
  omega

/-! ## One turn -/

/-- **A turn takes a terminal at least**, and two when it adds a declaration. -/
theorem exists_taken_eq_of_turn (stop : Location) (t : Terminal) (ts : List Terminal) :
    ∃ taken, t :: ts = taken ++ (turn stop t ts).rest ∧ 1 ≤ taken.length ∧
      ((turn stop t ts).added.tree.declarations ≠ [] → 2 ≤ taken.length) := by
  obtain ⟨taken, htaken⟩ := turn_rest_suffix stop t ts
  refine ⟨t :: taken, congrArg (t :: ·) htaken.symm, Nat.succ_pos _, fun hadded => ?_⟩
  rcases turn_cases stop t ts with
    ⟨-, hturn⟩ | ⟨-, ⟨d, rest, hread, hturn⟩ | ⟨cause, rest, -, hturn⟩⟩
  · exact absurd (by rw [hturn]; rfl) hadded
  · have hlength := length_add_two_le_of_declaration hread
    rw [hturn] at htaken
    rw [← htaken] at hlength
    simp only [List.length_cons, List.length_append] at hlength ⊢
    omega
  · exact absurd (by rw [hturn]) hadded

/-- What a turn adds is paid for by the terminals that it takes. -/
theorem two_mul_add_le_of_turn (stop : Location) (t : Terminal) (ts : List Terminal) :
    2 * (turn stop t ts).added.tree.declarations.length + (turn stop t ts).added.failures.length +
      (turn stop t ts).rest.length ≤ (t :: ts).length := by
  have hrest := (turn_rest_suffix stop t ts).length_le
  rcases turn_cases stop t ts with
    ⟨-, hturn⟩ | ⟨-, ⟨d, rest, hread, hturn⟩ | ⟨cause, rest, -, hturn⟩⟩
  · rw [hturn]
    simp [Outcome.empty]
  · have hlength := length_add_two_le_of_declaration hread
    rw [hturn]
    simp only [List.length_singleton, List.length_nil]
    omega
  · rw [hturn] at hrest ⊢
    simp only [List.length_nil, List.length_cons] at hrest ⊢
    omega

/-! ## The whole run -/

/-- **Whatever the loop has come to was paid for by the terminals behind it.** -/
theorem Reaches.two_mul_add_le (h : Reaches stop terminals added rest) :
    2 * added.tree.declarations.length + added.failures.length + rest.length ≤
      terminals.length := by
  induction h with
  | start => simp [Outcome.empty]
  | @next added t ts h ih =>
    have hturn := two_mul_add_le_of_turn stop t ts
    simp only [Outcome.followedBy, List.length_append]
    omega

end Grammar

namespace TokenStream

/-- The loop that parses the stream goes on in every state, and comes to its end. -/
structure MakesProgress (s : TokenStream) : Prop where
  /-- An attempt at a declaration, read or failed, takes a terminal just where one can start. -/
  attempt_takes : ∀ ts, ∃ taken, ts = taken ++ (declaration ts).reading.rest ∧
    (taken ≠ [] ↔ Begins Terminal.startsDeclaration ts)
  /-- Elsewhere a declaration is expected, and all the terminals are left. -/
  attempt_fails : ∀ ts, ¬ Begins Terminal.startsDeclaration ts →
    ∃ cause, (declaration ts).reading = .failed cause ts ∧
      cause.message = "Expected declaration, found " ++
        (ts.head?.map (·.token.kind.description)).getD "end of file"
  /-- Every turn takes a terminal, and two when it adds a declaration. -/
  turn_takes : ∀ t ts, ∃ taken, t :: ts = taken ++ (turn s.stop t ts).rest ∧ 1 ≤ taken.length ∧
    ((turn s.stop t ts).added.tree.declarations ≠ [] → 2 ≤ taken.length)
  /-- The loop ends when no terminals are left, and what it has then is the parse. -/
  ends : ∀ added, Reaches s.stop (Terminal.ofTokens s.tokens) added [] ↔ added = s.parse
  two_mul_add_le : 2 * s.parse.tree.declarations.length + s.parse.failures.length ≤
    s.significant.length

/-- **Every stream is parsed by turns that make progress**, well-formed or not. -/
theorem parse_makesProgress (s : TokenStream) : s.MakesProgress where
  attempt_takes := exists_taken_eq
  attempt_fails _ := message_of_not_begins
  turn_takes := exists_taken_eq_of_turn s.stop
  ends added := by
    constructor
    · intro h
      have hparse := h.declarations_eq
      rw [declarations, Outcome.followedBy_empty] at hparse
      exact hparse.symm
    · rintro rfl
      exact Reaches.ends s.stop _
  two_mul_add_le := by
    have hbound := (Reaches.ends s.stop (Terminal.ofTokens s.tokens)).two_mul_add_le
    have hlength := congrArg List.length (Terminal.map_token_ofTokens s.tokens)
    rw [List.length_map] at hlength
    rw [significant, ← hlength]
    exact hbound

end TokenStream

end DeclFront
