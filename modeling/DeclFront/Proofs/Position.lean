import DeclFront.Source.Range
import Mathlib.Order.Basic
import Mathlib.Order.Defs.LinearOrder

/-!
# Proofs/Position — the order of positions, and how a text moves one

Positions are ordered linearly.  Every character moves a position strictly forward (`lt_past`),
whatever follows it, so a stretch of text that is not empty does so too (`lt_pastAll`) and distinct
places of one text have distinct positions.  A text that starts elsewhere has its positions shifted
(`shift_pastAll`).  `Range.slice` reads a stretch of a text back off its range, and `slice_between`
says that nothing before or behind it gets in.
-/

namespace DeclFront

/-- Every character counts, in one unit or two. -/
theorem utf16Units_pos (c : Char) : 0 < utf16Units c := by
  unfold utf16Units
  split <;> decide

namespace Position

/-! ## A linear order -/

/-- Positions are ordered by line and then by column, linearly. -/
instance : LinearOrder Position where
  le_refl p := .inr ⟨rfl, Nat.le_refl _⟩
  le_trans p q r hpq hqr := by simp only [le_def] at *; omega
  lt_iff_le_not_ge p q := by simp only [le_def, lt_def]; omega
  le_antisymm p q hpq hqp := by
    obtain ⟨pl, pc⟩ := p
    obtain ⟨ql, qc⟩ := q
    simp only [le_def] at hpq hqp
    simp only [mk.injEq]
    omega
  le_total p q := by simp only [le_def]; omega
  toDecidableLE p q := inferInstance
  toDecidableEq p q := inferInstance
  toDecidableLT p q := inferInstance

/-! ## Moving over characters -/

/-- **A character moves a position forward** — by a line where one ends, by columns elsewhere. -/
theorem lt_past (p : Position) (c : Char) (next : Option Char) : p < p.past c next := by
  unfold past
  split
  · exact .inl (Nat.lt_succ_self _)
  · exact .inr ⟨rfl, Nat.lt_add_of_pos_right (utf16Units_pos c)⟩

/-- A stretch of text is passed in two parts; the first is followed by the second. -/
theorem pastAll_append (p : Position) (front back rest : List Char) :
    p.pastAll (front ++ back) rest = (p.pastAll front (back ++ rest)).pastAll back rest := by
  induction front generalizing p with
  | nil => rfl
  | cons c cs ih =>
    have hnext : (cs ++ back).head?.or rest.head? = cs.head?.or (back ++ rest).head? := by
      cases cs <;> simp
    simp only [List.cons_append, pastAll]
    rw [ih, hnext]

/-- Characters only lead onwards. -/
theorem le_pastAll (p : Position) (chars rest : List Char) : p ≤ p.pastAll chars rest := by
  induction chars generalizing p with
  | nil => exact le_refl p
  | cons c cs ih => exact (lt_past p c _).le.trans (ih _)

/-- **A stretch of text that is not empty ends behind its start.** -/
theorem lt_pastAll (p : Position) {chars : List Char} (h : chars ≠ []) (rest : List Char) :
    p < p.pastAll chars rest := by
  cases chars with
  | nil => exact absurd rfl h
  | cons c cs => exact (lt_past p c _).trans_le (le_pastAll _ cs rest)

/-- What follows a stretch of text matters behind a carriage return only. -/
theorem pastAll_congr (p : Position) {chars rest rest' : List Char}
    (h : chars.getLast? = some '\r' → rest.head? = rest'.head?) :
    p.pastAll chars rest = p.pastAll chars rest' := by
  induction chars generalizing p with
  | nil => rfl
  | cons c cs ih =>
    rcases cs with _ | ⟨d, cs⟩
    · have hpast : p.past c rest.head? = p.past c rest'.head? := by
        by_cases hc : c = '\r'
        · rw [h (congrArg some hc)]
        · simp [past, endsLine, hc]
      exact hpast
    · rw [List.getLast?_cons_cons] at h
      exact ih (p.past c (some d)) h

/-! ## A text inside another -/

/-- Where a position of a text is when the text starts at `start`. -/
def shift (start p : Position) : Position :=
  if p.line = 1 then ⟨start.line, start.column + (p.column - 1)⟩
  else ⟨start.line + (p.line - 1), p.column⟩

theorem shift_first (start : Position) : start.shift .first = start := rfl

/-- To go past a character and to shift come to the same in either order. -/
theorem shift_past {p : Position} (hp : first ≤ p) (start : Position) (c : Char)
    (next : Option Char) : start.shift (p.past c next) = (start.shift p).past c next := by
  obtain ⟨line, column⟩ := p
  simp only [le_def, first] at hp
  unfold shift past
  by_cases hline : line = 1
  · cases endsLine c next
    · simp only [hline, if_true, Bool.false_eq_true, if_false, mk.injEq, true_and]
      omega
    · simp [hline]
  · cases endsLine c next
    · simp [hline]
    · have hline' : line + 1 ≠ 1 := by omega
      simp only [hline, hline', if_false, if_true, mk.injEq, and_true]
      omega

/-- **Moving over characters is the same inside another text.** -/
theorem shift_pastAll {p : Position} (hp : first ≤ p) (start : Position) (chars rest : List Char) :
    start.shift (p.pastAll chars rest) = (start.shift p).pastAll chars rest := by
  induction chars generalizing p with
  | nil => rfl
  | cons c cs ih => rw [pastAll, pastAll, ih (hp.trans (lt_past p c _).le), shift_past hp]

/-! ## The characters between two positions -/

/-- The characters from `start` up to `stop` of a text that starts at `p`. -/
def slice (start stop : Position) : (p : Position) → (text : List Char) → List Char
  | _, [] => []
  | p, c :: cs =>
    if start ≤ p ∧ p < stop then c :: slice start stop (p.past c cs.head?) cs
    else slice start stop (p.past c cs.head?) cs

variable {start stop p : Position}

/-- Nothing of a text that starts at `stop` or behind it is in the slice. -/
theorem slice_of_stop_le (h : stop ≤ p) (text : List Char) : slice start stop p text = [] := by
  induction text generalizing p with
  | nil => rfl
  | cons c cs ih =>
    rw [slice, if_neg fun hp => absurd hp.2 (not_lt.2 h)]
    exact ih (h.trans (lt_past p c _).le)

/-- What stands in front of the start is not in the slice. -/
theorem slice_append_of_le (front rest : List Char) (h : p.pastAll front rest ≤ start) :
    slice start stop p (front ++ rest) = slice start stop (p.pastAll front rest) rest := by
  induction front generalizing p with
  | nil => rfl
  | cons c cs ih =>
    have hp : p < start := (lt_past p c _).trans_le ((le_pastAll _ cs rest).trans h)
    have hnext : (cs ++ rest).head? = cs.head?.or rest.head? := by cases cs <;> simp
    rw [List.cons_append, slice, if_neg fun hs => absurd hs.1 (not_le.2 hp), hnext]
    exact ih h

/-- From the start on, all that stands in front of the stop is in the slice. -/
theorem slice_append_of_ge (chars rest : List Char) (hp : start ≤ p)
    (h : p.pastAll chars rest ≤ stop) :
    slice start stop p (chars ++ rest) =
      chars ++ slice start stop (p.pastAll chars rest) rest := by
  induction chars generalizing p with
  | nil => rfl
  | cons c cs ih =>
    have hstop : p < stop := (lt_past p c _).trans_le ((le_pastAll _ cs rest).trans h)
    have hnext : (cs ++ rest).head? = cs.head?.or rest.head? := by cases cs <;> simp
    rw [List.cons_append, slice, if_pos ⟨hp, hstop⟩, hnext]
    exact congrArg (c :: ·) (ih (hp.trans (lt_past p c _).le) h)

/-- **The slice between two places of a text is the stretch between them.** -/
theorem slice_between (p : Position) (before chars after : List Char) :
    slice (p.pastAll before (chars ++ after)) (p.pastAll (before ++ chars) after) p
      (before ++ chars ++ after) = chars := by
  rw [List.append_assoc, pastAll_append, slice_append_of_le _ _ le_rfl,
    slice_append_of_ge _ _ le_rfl le_rfl, slice_of_stop_le le_rfl, List.append_nil]

end Position

/-! ## Ranges -/

namespace Range

/-- The characters of a text that its range covers. -/
def slice (r : Range) (text : String) : String :=
  String.ofList (Position.slice r.start.toPosition r.stop.toPosition .first text.toList)

/-- One range inside another. -/
def Encloses (r s : Range) : Prop :=
  r.start.toPosition ≤ s.start.toPosition ∧ s.stop.toPosition ≤ r.stop.toPosition

instance (r s : Range) : Decidable (r.Encloses s) := inferInstanceAs (Decidable (_ ∧ _))

/-- One range behind which another starts. -/
def Precedes (r s : Range) : Prop := r.stop.toPosition ≤ s.start.toPosition

/-- A range that is not empty lies in none that it precedes or that precedes it. -/
theorem not_encloses_of_precedes {r s : Range} (hs : s.start.toPosition < s.stop.toPosition)
    (h : r.Precedes s ∨ s.Precedes r) : ¬ r.Encloses s := by
  rintro ⟨hstart, hstop⟩
  rcases h with h | h
  · exact absurd hstop (not_le.2 (lt_of_le_of_lt h hs))
  · exact absurd hstart (not_le.2 (lt_of_lt_of_le hs h))

/-- The range does not end before its start. -/
def IsForward (r : Range) : Prop := r.start.toPosition ≤ r.stop.toPosition

/-- Ranges inside another, none of which starts before the one in front of it has ended. -/
def HoldsInOrder (r : Range) (inner : List Range) : Prop :=
  (∀ s ∈ inner, r.Encloses s) ∧ inner.Pairwise Precedes

end Range

end DeclFront
