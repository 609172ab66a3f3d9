import DeclFront.Source.Range
import Mathlib.Data.List.Basic

/-!
# Proofs/Text/Digits — numbers and ranges written out

    path  [ line : column - line : column ]

A number is written with the digits of its base and no other characters (`notMem_toDigits`), and can
be told from them (`toDigits_injective`).  So each mark of a range ends the number in front of it,
and what stands behind the path tells both of its positions (`Range.marks_append_inj`).
-/

namespace DeclFront

/-- A mark that stands in neither of two texts ends both at the same place. -/
theorem append_cons_inj_of_notMem {c : Char} {front front' back back' : List Char}
    (hfront : c ∉ front) (hfront' : c ∉ front') (h : front ++ c :: back = front' ++ c :: back') :
    front = front' ∧ back = back' := by
  have htake := congrArg (List.takeWhile (· != c)) h
  rw [List.takeWhile_append_of_pos fun d hd => by simpa using ne_of_mem_of_not_mem hd hfront,
    List.takeWhile_append_of_pos fun d hd => by simpa using ne_of_mem_of_not_mem hd hfront'] at htake
  obtain rfl : front = front' := by simpa using htake
  exact ⟨rfl, (List.cons.inj (List.append_cancel_left h)).2⟩

/-! ## Numbers -/

section Numbers

variable {b : Nat} {c : Char}

/-- The digits up to base sixteen, and the mark that stands for all others. -/
def digitChars : List Char :=
  ['0', '1', '2', '3', '4', '5', '6', '7', '8', '9', 'a', 'b', 'c', 'd', 'e', 'f', '*']

/-- A digit is a character of digits. -/
theorem digitChar_ne (hc : c ∉ digitChars) (d : Nat) : d.digitChar ≠ c :=
  Nat.digitChar_ne c (by simpa [digitChars, and_assoc] using hc)

/-- What is no digit stands in no number. -/
theorem notMem_toDigits (hb : 1 < b) (hc : c ∉ digitChars) (n : Nat) : c ∉ Nat.toDigits b n := by
  induction n using Nat.strongRecOn with
  | _ n ih =>
    rw [Nat.toDigits_eq_if hb]
    split
    · rw [List.mem_singleton]
      exact (digitChar_ne hc n).symm
    · rename_i hn
      rw [List.mem_append, List.mem_singleton, not_or]
      exact ⟨ih _ (Nat.div_lt_self (by omega) hb), (digitChar_ne hc _).symm⟩

/-- Digits are told apart by their characters. -/
theorem digitChar_inj {d e : Nat} (hd : d < 16) (he : e < 16) (h : d.digitChar = e.digitChar) :
    d = e := by
  have hinj : ∀ d < 16, ∀ e < 16, Nat.digitChar d = Nat.digitChar e → d = e := by decide
  exact hinj d hd e he h

/-- **A number is known by its digits.** -/
theorem toDigits_injective (hb : 1 < b) (hb' : b ≤ 16) : Function.Injective (Nat.toDigits b) := by
  intro m n h
  induction m using Nat.strongRecOn generalizing n with
  | _ m ih =>
    rw [Nat.toDigits_eq_if hb, Nat.toDigits_eq_if hb (n := n)] at h
    have hdigit (k : Nat) : k % b < 16 :=
      Nat.lt_of_lt_of_le (Nat.mod_lt k (Nat.zero_lt_of_lt hb)) hb'
    -- A number of one digit is no longer one; two longer ones are compared digit by digit.
    split at h <;> split at h
    · exact digitChar_inj (by omega) (by omega) (List.singleton_inj.1 h)
    · exact absurd (List.append_eq_singleton_iff.1 h.symm) (by simp)
    · exact absurd (List.append_eq_singleton_iff.1 h) (by simp)
    · rename_i hm hn
      obtain ⟨hdiv, hmod⟩ := List.append_inj' h rfl
      have hdiv := ih (m / b) (Nat.div_lt_self (by omega) hb) hdiv
      have hmod := digitChar_inj (hdigit m) (hdigit n) (List.singleton_inj.1 hmod)
      rw [← Nat.div_add_mod m b, ← Nat.div_add_mod n b, hdiv, hmod]

/-- **A number ends** where something stands that is no digit. -/
theorem toDigits_append_inj (hb : 1 < b) (hb' : b ≤ 16) (hc : c ∉ digitChars) {m n : Nat}
    {back back' : List Char} (h : Nat.toDigits b m ++ c :: back = Nat.toDigits b n ++ c :: back') :
    m = n ∧ back = back' := by
  obtain ⟨hdigits, hback⟩ :=
    append_cons_inj_of_notMem (notMem_toDigits hb hc m) (notMem_toDigits hb hc n) h
  exact ⟨toDigits_injective hb hb' hdigits, hback⟩

end Numbers

/-! ## Ranges -/

namespace Range

variable {r r' : Range}

/-- What stands behind the path in the text of a range. -/
def marks (r : Range) : List Char :=
  '[' :: (Nat.toDigits 10 r.start.line ++ ':' :: (Nat.toDigits 10 r.start.column ++
    '-' :: (Nat.toDigits 10 r.stop.line ++ ':' :: (Nat.toDigits 10 r.stop.column ++ [']']))))

theorem toList_text (r : Range) : r.text.toList = r.start.path.toList ++ r.marks := by
  simp [text, marks]

/-- The marks of a range hold digits, brackets, colons and a dash. -/
theorem notMem_marks {c : Char} (hdigit : c ∉ digitChars) (hmark : c ∉ ['[', ':', '-', ']'])
    (r : Range) : c ∉ r.marks := by
  have hnumber (n : Nat) : c ∉ Nat.toDigits 10 n := notMem_toDigits (by decide) hdigit n
  simp only [List.mem_cons, not_or] at hmark
  simp [marks, hnumber, hmark]

/-- **The marks of a range tell where it starts and stops**, whatever stands behind them. -/
theorem marks_append_inj {back back' : List Char} (h : r.marks ++ back = r'.marks ++ back') :
    r.start.toPosition = r'.start.toPosition ∧ r.stop.toPosition = r'.stop.toPosition ∧
      back = back' := by
  have hcolon : ':' ∉ digitChars := by decide
  have hdash : '-' ∉ digitChars := by decide
  have hclose : ']' ∉ digitChars := by decide
  simp only [marks, List.cons_append, List.append_assoc, List.nil_append] at h
  obtain ⟨hstartLine, h⟩ :=
    toDigits_append_inj (by decide) (by decide) hcolon (List.cons.inj h).2
  obtain ⟨hstartColumn, h⟩ := toDigits_append_inj (by decide) (by decide) hdash h
  obtain ⟨hstopLine, h⟩ := toDigits_append_inj (by decide) (by decide) hcolon h
  obtain ⟨hstopColumn, hback⟩ := toDigits_append_inj (by decide) (by decide) hclose h
  have position {p q : Position} (hline : p.line = q.line) (hcolumn : p.column = q.column) :
      p = q := Position.mk.injEq .. ▸ ⟨hline, hcolumn⟩
  exact ⟨position hstartLine hstartColumn, position hstopLine hstopColumn, hback⟩

end Range

end DeclFront
