import DeclFront.Proofs.Grammar.Head
import DeclFront.Proofs.Grammar.Terminals
import Mathlib.Data.List.Induction

/-!
# Proofs/Grammar/Parentheses — the count of parentheses in a clause

    opening    inner          closing    back
    ( ──────── ( ─ ) ──────── )  ─────────────
    1          2   1          0

The rule for attribute arguments counts open parentheses from one terminal to the next.  What it
reads closes all that was opened inside, and at no place more (`ClosesAll`).  On the tokens, trivia
and all, that is the clause up to the first parenthesis which brings the count back to zero
(`isClause_iff`).
-/

namespace DeclFront

/-! ## Counting -/

/-- What a token adds to the count of open parentheses. -/
def Token.parenthesis (t : Token) : Int :=
  if t.kind.isPunctuator .leftParen then 1
  else if t.kind.isPunctuator .rightParen then -1
  else 0

/-- The opening parentheses less the closing ones. -/
def parenthesisBalance : List Token → Int
  | [] => 0
  | t :: tokens => t.parenthesis + parenthesisBalance tokens

variable {opening closing t : Token} {tokens inner : List Token} {depth : Nat}

@[simp] theorem parenthesisBalance_nil : parenthesisBalance [] = 0 := rfl

@[simp] theorem parenthesisBalance_cons (t : Token) (tokens : List Token) :
    parenthesisBalance (t :: tokens) = t.parenthesis + parenthesisBalance tokens := rfl

@[simp] theorem parenthesisBalance_append (front back : List Token) :
    parenthesisBalance (front ++ back) = parenthesisBalance front + parenthesisBalance back := by
  induction front with
  | nil => simp
  | cons t front ih =>
    rw [List.cons_append, parenthesisBalance_cons, parenthesisBalance_cons, ih, Int.add_assoc]

/-- A token closes one parenthesis at most. -/
theorem Token.neg_one_le_parenthesis (t : Token) : -1 ≤ t.parenthesis := by
  unfold parenthesis
  split
  · decide
  · split <;> decide

theorem Token.parenthesis_of_leftParen (t : Token) (h : t.kind.isPunctuator .leftParen = true) :
    t.parenthesis = 1 := if_pos h

theorem Token.parenthesis_of_rightParen (t : Token) (h : t.kind.isPunctuator .rightParen = true) :
    t.parenthesis = -1 := by
  have hkind : t.kind = .punctuator .rightParen := by
    simpa [TokenKind.isPunctuator] using h
  rw [parenthesis, hkind]
  rfl

/-- Only parentheses count. -/
theorem Token.parenthesis_of_other (t : Token) (hopen : ¬ t.kind.isPunctuator .leftParen = true)
    (hclose : ¬ t.kind.isPunctuator .rightParen = true) : t.parenthesis = 0 := by
  rw [parenthesis, if_neg hopen, if_neg hclose]

/-- Trivia do not count. -/
theorem parenthesisBalance_filter (tokens : List Token) :
    parenthesisBalance (tokens.filter (!·.isTrivia)) = parenthesisBalance tokens := by
  induction tokens with
  | nil => rfl
  | cons t tokens ih =>
    cases ht : t.isTrivia with
    | false => rw [List.filter_cons_of_pos (by simp [ht]), parenthesisBalance_cons, ih,
        parenthesisBalance_cons]
    | true =>
      have hzero : t.parenthesis = 0 := by
        cases hk : t.kind <;>
          simp_all [Token.parenthesis, Token.isTrivia, TokenKind.isTrivia, TokenKind.isPunctuator]
      rw [List.filter_cons_of_neg (by simp [ht]), ih, parenthesisBalance_cons, hzero, Int.zero_add]

/-! ## Closing what is open -/

/-- The tokens close as many parentheses as are open, and never one more. -/
structure ClosesAll (depth : Nat) (tokens : List Token) : Prop where
  balance_eq : depth + parenthesisBalance tokens = 0
  nonneg : ∀ front, front <+: tokens → 0 ≤ depth + parenthesisBalance front

namespace ClosesAll

/-- Nothing closes all that is open only where nothing is. -/
theorem nil_iff : ClosesAll depth [] ↔ depth = 0 := by
  constructor
  · rintro ⟨h, -⟩
    simpa using h
  · rintro rfl
    exact ⟨rfl, fun front hfront => by simp [List.prefix_nil.1 hfront]⟩

/-- One token more in front, with which so many parentheses are open. -/
theorem cons_iff {d : Nat} (h : depth + t.parenthesis = d) :
    ClosesAll depth (t :: tokens) ↔ ClosesAll d tokens := by
  constructor
  · rintro ⟨hbalance, hnonneg⟩
    rw [parenthesisBalance_cons] at hbalance
    refine ⟨by omega, fun front hfront => ?_⟩
    have := hnonneg (t :: front) ((List.prefix_cons_inj t).2 hfront)
    rw [parenthesisBalance_cons] at this
    omega
  · rintro ⟨hbalance, hnonneg⟩
    refine ⟨by rw [parenthesisBalance_cons]; omega, fun front hfront => ?_⟩
    rcases List.prefix_cons_iff.1 hfront with rfl | ⟨others, rfl, hothers⟩
    · rw [parenthesisBalance_nil]
      omega
    · have := hnonneg others hothers
      rw [parenthesisBalance_cons]
      omega

/-- Nothing closes a parenthesis that is not open. -/
theorem not_cons_of_neg (h : depth + t.parenthesis < 0) : ¬ ClosesAll depth (t :: tokens) := by
  rintro ⟨-, hnonneg⟩
  have := hnonneg [t] (by simp)
  rw [parenthesisBalance_cons, parenthesisBalance_nil] at this
  omega

/-- Where the count comes to zero but never below it, it comes there with one step at most, so that
it is enough that it is nowhere one below. -/
theorem of_ne (hbalance : depth + parenthesisBalance tokens = 0)
    (hne : ∀ front, front <+: tokens → depth + parenthesisBalance front ≠ -1) :
    ClosesAll depth tokens := by
  refine ⟨hbalance, fun front hfront => ?_⟩
  induction front using List.reverseRecOn with
  | nil => simp
  | append_singleton front t ih =>
    have hbefore := ih ((List.prefix_append front [t]).trans hfront)
    have hhere := hne _ hfront
    have hstep := t.neg_one_le_parenthesis
    simp only [parenthesisBalance_append, parenthesisBalance_cons,
      parenthesisBalance_nil] at hhere ⊢
    omega

end ClosesAll

/-! ## The rule for clauses -/

namespace Grammar.ArgumentClause

variable {ts inner rest : List Terminal} {closing : Terminal} {clause : ArgumentClause}

/-- Terminals that close all parentheses but one are read up to the one that closes that. -/
theorem read_of_closesAll (h : ClosesAll depth (inner.map Terminal.token))
    (hclosing : closing.isPunctuator .rightParen = true) :
    read (depth + 1) (inner ++ closing :: rest) = some ⟨inner, closing, rest⟩ := by
  induction inner generalizing depth with
  | nil =>
    obtain rfl := ClosesAll.nil_iff.1 h
    have hopen := isPunctuator_of_ne hclosing (q := .leftParen) (by decide)
    rw [List.nil_append, read, if_neg (by simp [hopen]), if_pos hclosing, if_pos rfl]
  | cons t inner ih =>
    rw [List.map_cons] at h
    rw [List.cons_append, read]
    split
    · rename_i hopen
      rw [ih ((ClosesAll.cons_iff (by rw [t.token.parenthesis_of_leftParen hopen]; rfl)).1 h)]
      rfl
    · rename_i hopen
      split
      · rename_i hclose
        have hcount := t.token.parenthesis_of_rightParen hclose
        rcases depth with _ | depth
        · exact absurd h (ClosesAll.not_cons_of_neg (by rw [hcount]; decide))
        · rw [if_neg (by simp), Nat.add_sub_cancel,
            ih ((ClosesAll.cons_iff (by rw [hcount]; omega)).1 h)]
          rfl
      · rename_i hclose
        have hcount := t.token.parenthesis_of_other hopen hclose
        rw [ih ((ClosesAll.cons_iff (by rw [hcount]; omega)).1 h)]
        rfl

/-- What is read closes all parentheses but the one that the reading started in. -/
theorem closesAll_of_read (h : read (depth + 1) ts = some clause) :
    ClosesAll depth (clause.inner.map Terminal.token) ∧
      clause.closing.isPunctuator .rightParen = true ∧
        ts = clause.inner ++ clause.closing :: clause.rest := by
  induction ts generalizing depth clause with
  | nil => cases h
  | cons t ts ih =>
    -- The count goes on from the first terminal, which stands inside.
    have step {d : Nat} (hd : depth + t.token.parenthesis = d)
        (hread : (read (d + 1) ts).map (cons t) = some clause) :
        ClosesAll depth (clause.inner.map Terminal.token) ∧
          clause.closing.isPunctuator .rightParen = true ∧
            t :: ts = clause.inner ++ clause.closing :: clause.rest := by
      obtain ⟨behind, hbehind, rfl⟩ := Option.map_eq_some_iff.1 hread
      obtain ⟨hcloses, hclosing, rfl⟩ := ih hbehind
      exact ⟨(ClosesAll.cons_iff hd).2 hcloses, hclosing, rfl⟩
    rw [read] at h
    split at h
    · rename_i hopen
      exact step (by rw [t.token.parenthesis_of_leftParen hopen]; rfl) h
    · rename_i hopen
      split at h
      · rename_i hclose
        split at h
        · rename_i hdepth
          obtain rfl : depth = 0 := hdepth
          cases h
          exact ⟨ClosesAll.nil_iff.2 rfl, hclose, rfl⟩
        · rename_i hdepth
          obtain ⟨d, rfl⟩ := Nat.exists_eq_succ_of_ne_zero hdepth
          exact step (by rw [t.token.parenthesis_of_rightParen hclose]; omega) h
      · rename_i hclose
        exact step (by rw [t.token.parenthesis_of_other hopen hclose]; omega) h

end Grammar.ArgumentClause

/-- Inside a clause that is derived all parentheses are closed. -/
theorem Grammar.ClauseTree.closesAll (clause : ClauseTree) :
    ClosesAll 0 (clause.inner.map Terminal.token) := by
  have hread : ArgumentClause.read 1 (clause.inner ++ [clause.closing.terminal]) =
      some ⟨clause.inner, clause.closing.terminal, []⟩ :=
    ArgumentClause.read_one_eq_some_iff.2 ⟨clause.balanced, clause.closing.isPunctuator, rfl⟩
  exact (ArgumentClause.closesAll_of_read hread).1

/-! ## Clauses as tokens -/

/-- The closing parenthesis is the first token behind the opening one that brings the count back to
zero. -/
structure IsClause (opening : Token) (inner : List Token) (closing : Token) : Prop where
  opening_kind : opening.kind = .punctuator .leftParen
  closing_kind : closing.kind = .punctuator .rightParen
  balance_eq : parenthesisBalance (opening :: (inner ++ [closing])) = 0
  balance_ne : ∀ front, front <+: inner → parenthesisBalance (opening :: front) ≠ 0

/-- Behind the opening parenthesis of a clause all others are closed. -/
theorem isClause_iff (hopening : opening.kind = .punctuator .leftParen) :
    IsClause opening inner closing ↔
      closing.kind = .punctuator .rightParen ∧ ClosesAll 0 (inner.filter (!·.isTrivia)) := by
  have hone : opening.parenthesis = 1 := by
    rw [Token.parenthesis, hopening]
    rfl
  have hminus (hclosing : closing.kind = .punctuator .rightParen) : closing.parenthesis = -1 := by
    rw [Token.parenthesis, hclosing]
    rfl
  constructor
  · rintro ⟨-, hclosing, hbalance, hne⟩
    refine ⟨hclosing, .of_ne ?_ fun front hfront => ?_⟩
    · simp only [parenthesisBalance_cons, parenthesisBalance_append, parenthesisBalance_nil, hone,
        hminus hclosing] at hbalance
      rw [parenthesisBalance_filter]
      omega
    · obtain ⟨whole, hwhole, rfl⟩ := List.prefix_filter_iff.1 hfront
      have := hne whole hwhole
      rw [parenthesisBalance_cons, hone] at this
      rw [parenthesisBalance_filter]
      omega
  · rintro ⟨hclosing, hbalance, hnonneg⟩
    refine ⟨hopening, hclosing, ?_, fun front hfront => ?_⟩
    · rw [parenthesisBalance_filter] at hbalance
      simp only [parenthesisBalance_cons, parenthesisBalance_append, parenthesisBalance_nil, hone,
        hminus hclosing]
      omega
    · have := hnonneg _ (hfront.filter _)
      rw [parenthesisBalance_filter] at this
      rw [parenthesisBalance_cons, hone]
      omega

end DeclFront
