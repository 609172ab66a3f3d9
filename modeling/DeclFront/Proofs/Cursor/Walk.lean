import DeclFront.Proofs.Cursor.Basic
import DeclFront.Proofs.Grammar.Suffix

/-!
# Proofs/Cursor/Walk — from one cursor to another

    c ──advance──▸ … ──advance──▸ d        the tokens taken, a value or the cause of a failure

A *walk* is what an operation makes of a cursor.  It carries the calls of `advance` that lead to the
cursor it ends at, so whatever an operation does, on success or failure, it cannot move the cursor
in any other way; and a loop ends since each call leaves fewer tokens (`Advances.left_add_le`).

A walk *reads* what a rule of the grammar makes of a list of terminals when it has the same value or
cause and ends where the same terminals are left (`Walk.Reads`).  One rule after another is read by
one walk after another (`Walk.Reads.andThen`).
-/

namespace DeclFront

/-- The value of a reading, or why there is none. -/
def Reading.result {α : Type} : Reading α → Except Cause α
  | done value _ => .ok value
  | failed cause _ => .error cause

namespace Cursor

variable {c d e : Cursor} {t : Token} {taken more : List Token} {α β : Type}

/-! ## Calls of advance -/

/-- From one cursor to another by calls of `advance`, which return the tokens `taken`. -/
inductive Advances : Cursor → (taken : List Token) → Cursor → Prop where
  | refl (c : Cursor) : Advances c [] c
  | step {c d e : Cursor} {t : Token} {taken : List Token} (first : c.advance = (some t, d))
      (others : Advances d taken e) : Advances c (t :: taken) e

theorem advance_eq_some_iff : c.advance = (some t, d) ↔ c.peek = some t ∧ d = c.next := by
  rw [advance]
  cases c.peek with
  | none => simp
  | some u => simp [eq_comm]

/-- The number of tokens from the cursor on. -/
def left (c : Cursor) : Nat := c.stream.tokens.length - c.position

/-- Taking a token leaves fewer. -/
theorem left_next_lt (h : c.peek = some t) : c.next.left < c.left := by
  obtain ⟨hlt, -⟩ := List.getElem?_eq_some_iff.1 h
  have hle : c.position + 1 ≤ c.next.position := le_skipTrivia _ _
  have hstream : c.next.stream = c.stream := rfl
  rw [left, left, hstream]
  omega

/-- Induction along the tokens of a stream, from the end on. -/
theorem regular_induction {motive : (c : Cursor) → c.IsRegular → Prop}
    (step : ∀ c hc, (∀ d hd, d.left < c.left → motive d hd) → motive c hc) (c : Cursor)
    (hc : c.IsRegular) : motive c hc := by
  induction hn : c.left using Nat.strongRecOn generalizing c with
  | _ n ih =>
    subst hn
    exact step c hc fun d hd hlt => ih _ hlt d hd rfl

namespace Advances

theorem trans (h : c.Advances taken d) (h' : d.Advances more e) :
    c.Advances (taken ++ more) e := by
  induction h with
  | refl => exact h'
  | step first _ ih => exact .step first (ih h')

/-- Each call leaves fewer tokens. -/
theorem left_add_le (h : c.Advances taken d) : d.left + taken.length ≤ c.left := by
  induction h with
  | refl => exact Nat.le_refl _
  | step first _ ih =>
    obtain ⟨hpeek, rfl⟩ := advance_eq_some_iff.1 first
    have hlt := left_next_lt hpeek
    rw [List.length_cons]
    omega

theorem left_le (h : c.Advances taken d) : d.left ≤ c.left :=
  Nat.le_trans (Nat.le_add_right _ _) h.left_add_le

/-- Each call moves the cursor by one token at least. -/
theorem position_add_le (h : c.Advances taken d) : c.position + taken.length ≤ d.position := by
  induction h with
  | refl => exact Nat.le_refl _
  | @step c _ _ _ _ first _ ih =>
    obtain ⟨-, rfl⟩ := advance_eq_some_iff.1 first
    have hle : c.position + 1 ≤ c.next.position := le_skipTrivia _ _
    rw [List.length_cons]
    omega

theorem eq_of_nil (h : c.Advances [] d) : d = c := by
  cases h
  rfl

/-- The position tells whether a token was taken. -/
theorem position_eq_iff (h : c.Advances taken d) : d.position = c.position ↔ taken = [] := by
  constructor
  · intro hposition
    have hle := h.position_add_le
    exact List.length_eq_zero_iff.1 (by omega)
  · rintro rfl
    rw [h.eq_of_nil]

theorem stream_eq (h : c.Advances taken d) : d.stream = c.stream := by
  induction h with
  | refl => rfl
  | step first _ ih =>
    obtain ⟨-, rfl⟩ := advance_eq_some_iff.1 first
    exact ih

/-- Behind any calls there is no trivia but in front of the cursor. -/
theorem isRegular (h : c.Advances taken d) (hc : c.IsRegular) : d.IsRegular := by
  induction h with
  | refl => exact hc
  | step first _ ih =>
    obtain ⟨-, rfl⟩ := advance_eq_some_iff.1 first
    exact ih (isRegular_next _)

/-- **Calls of `advance` keep the place.** -/
theorem keepsPlace {s : TokenStream} {before : List Token} (h : c.Advances taken d)
    (hc : KeepsPlace s before c) : KeepsPlace s (before ++ taken) d := by
  induction h generalizing before with
  | refl => rwa [List.append_nil]
  | @step _ _ _ t taken first _ ih =>
    obtain ⟨hpeek, rfl⟩ := advance_eq_some_iff.1 first
    have hnext := ih (hc.next hpeek)
    rwa [List.append_assoc] at hnext

/-- The token taken last stands at the index kept for it. -/
theorem exists_previous (h : c.Advances taken d) (htaken : taken ≠ []) :
    ∃ i, d.previous = some i ∧ c.stream.tokens[i]? = taken.getLast? := by
  induction h with
  | refl => exact absurd rfl htaken
  | @step c _ e t taken first others ih =>
    obtain ⟨hpeek, rfl⟩ := advance_eq_some_iff.1 first
    cases others with
    | refl => exact ⟨c.position, rfl, hpeek⟩
    | step first' others' =>
      rw [List.getLast?_cons_cons]
      exact ih (List.cons_ne_nil _ _)

/-- **The terminals in front of the cursor reached are those of the tokens taken.** -/
theorem exists_passed (h : c.Advances taken d) (hc : c.IsRegular) :
    ∃ passed, c.terminals = passed ++ d.terminals ∧ passed.map Terminal.token = taken ∧
      c.stream.tokens.drop c.behind =
        Terminal.tokens passed ++ c.stream.tokens.drop d.behind ∧
      d.behind = c.behind + (Terminal.tokens passed).length := by
  induction h with
  | refl => exact ⟨[], rfl, rfl, rfl, rfl⟩
  | @step c _ _ t taken first _ ih =>
    obtain ⟨hpeek, rfl⟩ := advance_eq_some_iff.1 first
    obtain ⟨passed, hterminals, htaken, hdrop, hbehind⟩ := ih (isRegular_next c)
    obtain ⟨hlt, ht⟩ := List.getElem?_eq_some_iff.1 hpeek
    have hnext : c.next.behind = c.position + 1 := rfl
    have hposition := hc.position_eq
    -- One call passes the trivia in front of the cursor and the token at it.
    refine ⟨⟨c.leading, t⟩ :: passed, ?_, ?_, ?_, ?_⟩
    · rw [hc.terminals_eq_cons hpeek, hterminals, List.cons_append]
    · rw [List.map_cons, htaken]
    · rw [drop_eq_skipped_append, ← hc, List.drop_eq_getElem_cons hlt, ht, Terminal.tokens_cons,
        List.append_assoc, List.cons_append, ← hnext]
      exact congrArg (c.leading ++ t :: ·) hdrop
    · simp only [Terminal.tokens_cons, List.length_append, List.length_cons]
      omega

end Advances

/-! ## Walks -/

/-- What an operation makes of the cursor `c`. -/
structure Walk (c : Cursor) (α : Type) where
  /-- The value, or why there is none. -/
  result : Except Cause α
  /-- The tokens that `advance` has returned. -/
  taken : List Token
  /-- The cursor in the end. -/
  cursor : Cursor
  advances : c.Advances taken cursor

namespace Walk

/-- Stays at the cursor, with a value. -/
def done (c : Cursor) (a : α) : Walk c α := ⟨.ok a, [], c, .refl c⟩

/-- Stays at the cursor, without a value. -/
def failed (c : Cursor) (cause : Cause) : Walk c α := ⟨.error cause, [], c, .refl c⟩

/-- The failure to find something at the cursor. -/
def unexpected (c : Cursor) (wanted : Expectation) : Walk c α :=
  failed c (.unexpected wanted c.peek)

/-- Takes the token at the cursor and goes on. -/
def behind (h : c.peek = some t) (walk : Walk c.next α) : Walk c α :=
  ⟨walk.result, t :: walk.taken, walk.cursor, .step (advance_of_peek h) walk.advances⟩

/-- One walk and then another, whatever the result of the first. -/
def after (walk : Walk c α) (further : Walk walk.cursor β) : Walk c β :=
  ⟨further.result, walk.taken ++ further.taken, further.cursor,
    walk.advances.trans further.advances⟩

/-- Changes the value of a walk, not where it goes. -/
def map (f : α → β) (walk : Walk c α) : Walk c β :=
  ⟨walk.result.map f, walk.taken, walk.cursor, walk.advances⟩

/-- One walk, and then another from where it has ended with a value. -/
def andThen (walk : Walk c α) (rule : α → (d : Cursor) → d.left ≤ c.left → Walk d β) : Walk c β :=
  match walk.result with
  | .ok a => walk.after (rule a walk.cursor walk.advances.left_le)
  | .error cause => walk.after (failed walk.cursor cause)

/-- Takes the token at the cursor when something is found in it, and otherwise stays there. -/
def onNext (c : Cursor) (find : Token → Option β)
    (found : β → c.next.left < c.left → Walk c.next α) (other : Walk c α) : Walk c α :=
  match h : c.peek with
  | some t =>
    match find t with
    | some b => behind h (found b (left_next_lt h))
    | none => other
  | none => other

/-- Takes the token at the cursor when it is of a kind, and otherwise stays there. -/
def ifNext (c : Cursor) (accepts : TokenKind → Bool)
    (found : Token → c.next.left < c.left → Walk c.next α) (other : Walk c α) : Walk c α :=
  onNext c (Option.guard fun t => accepts t.kind) found other

section OnNext

variable {find : Token → Option β} {found : β → c.next.left < c.left → Walk c.next α}
  {other : Walk c α}

/-- What is found is taken. -/
theorem onNext_of_found {b : β} (h : c.peek = some t) (hb : find t = some b) :
    onNext c find found other = behind h (found b (left_next_lt h)) := by
  rw [onNext]
  split
  · rename_i u hu
    obtain rfl := Option.some.inj (h.symm.trans hu)
    rw [hb]
  · rename_i hnone
    rw [h] at hnone
    cases hnone

theorem onNext_of_other (h : c.peek.bind find = none) : onNext c find found other = other := by
  rw [onNext]
  split
  · rename_i t ht
    rw [ht, Option.bind_some] at h
    rw [h]
  · rfl

/-- Either the token at the cursor is taken, or it is as if it had not been looked at. -/
theorem ifNext_cases (c : Cursor) (accepts : TokenKind → Bool)
    (found : Token → c.next.left < c.left → Walk c.next α) (other : Walk c α) :
    (∃ t, ∃ h : c.peek = some t,
      ifNext c accepts found other = behind h (found t (left_next_lt h))) ∨
        ifNext c accepts found other = other := by
  cases h : c.peek.bind (Option.guard fun t => accepts t.kind) with
  | none => exact .inr (onNext_of_other h)
  | some u =>
    obtain ⟨t, hpeek, hguard⟩ := Option.bind_eq_some_iff.1 h
    obtain ⟨rfl, -⟩ := Option.guard_eq_some_iff.1 hguard
    exact .inl ⟨t, hpeek, onNext_of_found hpeek hguard⟩

end OnNext

variable {walk : Walk c α}

theorem andThen_of_ok {rule : α → (d : Cursor) → d.left ≤ c.left → Walk d β} {a : α}
    (h : walk.result = .ok a) :
    walk.andThen rule = walk.after (rule a walk.cursor walk.advances.left_le) := by
  rw [andThen]
  split
  · rename_i b hb
    rw [h] at hb
    cases hb
    rfl
  · rename_i cause hcause
    rw [h] at hcause
    cases hcause

theorem andThen_of_error {rule : α → (d : Cursor) → d.left ≤ c.left → Walk d β} {cause : Cause}
    (h : walk.result = .error cause) :
    walk.andThen rule = walk.after (failed walk.cursor cause) := by
  rw [andThen]
  split
  · rename_i b hb
    rw [h] at hb
    cases hb
  · rename_i cause' hcause
    rw [h] at hcause
    cases hcause
    rfl

/-- A walk that takes a token leaves fewer. -/
theorem left_lt (h : walk.taken ≠ []) : walk.cursor.left < c.left := by
  have hle := walk.advances.left_add_le
  have hpos := List.length_pos_iff.2 h
  omega

/-! ## What a walk reads -/

/-- The walk has the value or cause of a reading, and leaves the same terminals. -/
structure Reads (walk : Walk c α) (reading : Reading α) : Prop where
  result_eq : walk.result = reading.result
  terminals_eq : walk.cursor.terminals = reading.rest

namespace Reads

theorem done (c : Cursor) (a : α) : (Walk.done c a).Reads (.done a c.terminals) := ⟨rfl, rfl⟩

theorem failed (c : Cursor) (cause : Cause) :
    (Walk.failed c cause : Walk c α).Reads (.failed cause c.terminals) := ⟨rfl, rfl⟩

/-- The token that a walk blames is that of the first terminal. -/
theorem unexpected (hc : c.IsRegular) (wanted : Expectation) :
    (Walk.unexpected c wanted : Walk c α).Reads (.unexpected wanted c.terminals) := by
  have hhead : c.terminals.head?.map Terminal.token = c.peek := by
    cases h : c.peek with
    | none => rw [hc.terminals_eq_nil h]; rfl
    | some t => rw [hc.terminals_eq_cons h]; rfl
  rw [Reading.unexpected, hhead]
  exact failed c _

theorem behind {reading : Reading α} {further : Walk c.next α} (hfurther : further.Reads reading)
    (h : c.peek = some t) : (further.behind h).Reads reading :=
  ⟨hfurther.result_eq, hfurther.terminals_eq⟩

theorem after {reading : Reading β} {further : Walk walk.cursor β} (h : further.Reads reading) :
    (walk.after further).Reads reading := ⟨h.result_eq, h.terminals_eq⟩

theorem map {reading : Reading α} (h : walk.Reads reading) (f : α → β) :
    (walk.map f).Reads (reading.map f) := by
  refine ⟨?_, by rw [Reading.rest_map]; exact h.terminals_eq⟩
  rw [Walk.map, h.result_eq]
  cases reading <;> rfl

/-- Whether a rule stays where a walk stays is seen from the first of the terminals. -/
theorem of_head? {reading rule : List Terminal → Reading α} (h : walk.Reads (reading c.terminals))
    (hnil : rule [] = reading [])
    (hcons : ∀ t ∈ c.terminals.head?, ∀ ts, rule (t :: ts) = reading (t :: ts)) :
    walk.Reads (rule c.terminals) := by
  have heq : rule c.terminals = reading c.terminals := by
    cases hts : c.terminals with
    | nil => exact hnil
    | cons t ts => exact hcons t (by rw [hts]; rfl) ts
  rwa [heq]

/-- **What is found in the next token decides how a rule goes on.** -/
theorem onNext (hc : c.IsRegular) (spec : List Terminal → Reading α) {find : Token → Option β}
    {found : β → c.next.left < c.left → Walk c.next α} {other : Walk c α}
    (hfound : ∀ t b hlt, c.terminals = t :: c.next.terminals → find t.token = some b →
      (found b hlt).Reads (spec (t :: c.next.terminals)))
    (hother : (∀ t ∈ c.terminals.head?, find t.token = none) → other.Reads (spec c.terminals)) :
    (Walk.onNext c find found other).Reads (spec c.terminals) := by
  cases hpeek : c.peek with
  | none =>
    rw [onNext_of_other (by rw [hpeek]; rfl)]
    refine hother fun t ht => ?_
    rw [hc.terminals_eq_nil hpeek] at ht
    cases ht
  | some t =>
    have hterminals := hc.terminals_eq_cons hpeek
    cases hb : find t with
    | some b =>
      rw [onNext_of_found hpeek hb, hterminals]
      exact (hfound ⟨c.leading, t⟩ b _ hterminals hb).behind hpeek
    | none =>
      rw [onNext_of_other (by rw [hpeek]; exact hb)]
      refine hother fun u hu => ?_
      rw [hterminals] at hu
      obtain rfl := Option.some.inj hu
      exact hb

/-- **The kind of the next token decides how a rule goes on.** -/
theorem ifNext (hc : c.IsRegular) (spec : List Terminal → Reading α) {accepts : TokenKind → Bool}
    {found : Token → c.next.left < c.left → Walk c.next α} {other : Walk c α}
    (hfound : ∀ t hlt, c.terminals = t :: c.next.terminals → accepts t.token.kind = true →
      (found t.token hlt).Reads (spec (t :: c.next.terminals)))
    (hother : (∀ t ∈ c.terminals.head?, accepts t.token.kind = false) →
      other.Reads (spec c.terminals)) :
    (Walk.ifNext c accepts found other).Reads (spec c.terminals) := by
  refine onNext hc spec (fun t u hlt hts hu => ?_) fun hnone => ?_
  · obtain ⟨rfl, ht⟩ := Option.guard_eq_some_iff.1 hu
    exact hfound t hlt hts ht
  · refine hother fun t ht => ?_
    have hguard := hnone t ht
    rwa [Option.guard_eq_none_iff] at hguard

/-- **One rule after another is read by one walk after another.** -/
theorem andThen {reading : Reading α} (h : walk.Reads reading)
    {rule : α → (d : Cursor) → d.left ≤ c.left → Walk d β} {spec : α → List Terminal → Reading β}
    (hrule : ∀ a, walk.result = .ok a →
      (rule a walk.cursor walk.advances.left_le).Reads (spec a walk.cursor.terminals)) :
    (walk.andThen rule).Reads (reading.andThen spec) := by
  obtain ⟨hresult, hterminals⟩ := h
  cases reading with
  | done a rest =>
    rw [andThen_of_ok hresult, Reading.andThen]
    rw [Reading.rest_done] at hterminals
    rw [← hterminals]
    exact (hrule a hresult).after
  | failed cause rest =>
    rw [andThen_of_error hresult]
    exact ⟨rfl, hterminals⟩

end Reads

end Walk

/-- The cursor that a walk ends at is regular. -/
theorem Walk.isRegular (walk : Walk c α) (hc : c.IsRegular) : walk.cursor.IsRegular :=
  walk.advances.isRegular hc

end Cursor

end DeclFront
