import DeclFront.Diagnostic.Pool
import DeclFront.Grammar.Declaration

/-!
# Grammar/Outcome — a token stream as declarations

`TokenStream.parse` reads declaration after declaration; semicolons may stand between them. When one
fails, its failure is kept and reading goes on at the next terminal that can start a declaration and
up to which no more braces have opened than closed since the failure. Each failure passes over one
terminal at least (`length_resume_le`), so that parsing ends.
-/

namespace DeclFront

/-- All that comes of parsing one source text. -/
structure Outcome where
  tree : SyntaxTree
  diagnostics : DiagnosticPool
  failures : List Failure
deriving DecidableEq, Repr

namespace Outcome

/-- No declaration has failed; diagnostics do not count. -/
def isSuccess (outcome : Outcome) : Bool := outcome.failures.isEmpty

/-- The outcome of a text without declarations. -/
def empty : Outcome := ⟨⟨[]⟩, ∅, []⟩

/-- Puts diagnostics in front of those of an outcome. -/
def diagnose (ds : List Diagnostic) (outcome : Outcome) : Outcome :=
  ⟨outcome.tree, ⟨ds ++ outcome.diagnostics.diagnostics⟩, outcome.failures⟩

/-- Puts a declaration in front of those of an outcome. -/
def declare (d : Declaration) (outcome : Outcome) : Outcome :=
  ⟨⟨d :: outcome.tree.declarations⟩, outcome.diagnostics, outcome.failures⟩

/-- Puts a failure in front of those of an outcome. -/
def fail (failure : Failure) (outcome : Outcome) : Outcome :=
  ⟨outcome.tree, outcome.diagnostics, failure :: outcome.failures⟩

end Outcome

namespace Grammar

/-! ## Going on after a failure -/

/-- The terminals from the next one on that can start a declaration while no more braces were opened
than closed. `depth` counts opened braces less closed ones. -/
def nextStart : (depth : Int) → List Terminal → List Terminal
  | _, [] => []
  | depth, t :: ts =>
    if t.isPunctuator .leftBrace then nextStart (depth + 1) ts
    else if t.isPunctuator .rightBrace then nextStart (depth - 1) ts
    else if depth ≤ 0 && t.startsDeclaration then t :: ts
    else nextStart depth ts

/-- Looking for a start gives nothing back. -/
theorem length_nextStart_le (depth : Int) (terminals : List Terminal) :
    (nextStart depth terminals).length ≤ terminals.length := by
  fun_induction nextStart depth terminals <;> grind

/-- Where reading goes on after a declaration has failed with `rest` left. The first terminal of the
declaration, which `others` follow, is passed over even if nothing was read. -/
def resume (others rest : List Terminal) : List Terminal :=
  nextStart 0 (if rest.length ≤ others.length then rest else others)

/-- Going on after a failure drops one terminal at least, so the loop comes to an end here too. -/
theorem length_resume_le (others rest : List Terminal) :
    (resume others rest).length ≤ others.length := by
  refine Nat.le_trans (length_nextStart_le _ _) ?_
  split
  · assumption
  · exact Nat.le_refl _

/-! ## All declarations -/

/-- The declarations of a list of terminals, in a text that ends at `stop`. -/
def declarations (stop : Location) : List Terminal → Outcome
  | [] => .empty
  | t :: ts =>
    if t.isPunctuator .semicolon then declarations stop ts
    else
      .diagnose (declaration (t :: ts)).diagnostics <|
        match _h : (declaration (t :: ts)).reading with
        | .done d rest => .declare d (declarations stop rest)
        | .failed cause rest => .fail (.ofCause stop cause) (declarations stop (resume ts rest))
termination_by terminals => terminals.length
decreasing_by
  · exact Nat.lt_succ_self _
  · exact length_lt_of_declaration _h
  · exact Nat.lt_succ_of_le (length_resume_le ts rest)

section Steps

variable {stop : Location} {t : Terminal} {ts rest : List Terminal}

/-- A semicolon between declarations says nothing. -/
theorem declarations_of_semicolon (hs : t.isPunctuator .semicolon = true) :
    declarations stop (t :: ts) = declarations stop ts := by
  simp only [declarations, hs, if_true]

/-- A declaration that is read goes in front of what comes of the rest. -/
theorem declarations_of_done {d : Declaration} (hs : t.isPunctuator .semicolon = false)
    (h : (declaration (t :: ts)).reading = .done d rest) :
    declarations stop (t :: ts) =
      .diagnose (declaration (t :: ts)).diagnostics (.declare d (declarations stop rest)) := by
  simp only [declarations, hs, Bool.false_eq_true, if_false]
  congr 1
  split <;> simp_all

/-- A failure goes in front of what comes from where parsing goes on. -/
theorem declarations_of_failed {cause : Cause} (hs : t.isPunctuator .semicolon = false)
    (h : (declaration (t :: ts)).reading = .failed cause rest) :
    declarations stop (t :: ts) =
      .diagnose (declaration (t :: ts)).diagnostics
        (.fail (.ofCause stop cause) (declarations stop (resume ts rest))) := by
  simp only [declarations, hs, Bool.false_eq_true, if_false]
  congr 1
  split <;> simp_all

/-- Induction along parsing: at a semicolon, at a declaration that is read and at one that fails,
what is shown holds already of the terminals where parsing goes on. -/
@[elab_as_elim]
theorem declarations_induction {motive : List Terminal → Prop} (terminals : List Terminal)
    (nil : motive [])
    (semicolon : ∀ t ts, t.isPunctuator .semicolon = true → motive ts → motive (t :: ts))
    (done : ∀ t ts d rest, t.isPunctuator .semicolon = false →
      (declaration (t :: ts)).reading = .done d rest → motive rest → motive (t :: ts))
    (failed : ∀ t ts cause rest, t.isPunctuator .semicolon = false →
      (declaration (t :: ts)).reading = .failed cause rest → motive (resume ts rest) →
        motive (t :: ts)) : motive terminals := by
  induction hn : terminals.length using Nat.strongRecOn generalizing terminals with
  | _ n ih =>
    subst hn
    rcases terminals with _ | ⟨t, ts⟩
    · exact nil
    cases hs : t.isPunctuator .semicolon with
    | true => exact semicolon t ts hs (ih _ (Nat.lt_succ_self _) ts rfl)
    | false =>
      cases hr : (declaration (t :: ts)).reading with
      | done d rest => exact done t ts d rest hs hr (ih _ (length_lt_of_declaration hr) rest rfl)
      | failed cause rest =>
        have hlength := Nat.lt_succ_of_le (length_resume_le ts rest)
        exact failed t ts cause rest hs hr (ih _ hlength _ rfl)

end Steps

end Grammar

/-- Parses a token stream. -/
def TokenStream.parse (s : TokenStream) : Outcome :=
  Grammar.declarations s.stop (Terminal.ofTokens s.tokens)

end DeclFront
