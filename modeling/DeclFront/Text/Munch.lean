/-!
# Text/Munch — reading characters off the front of a text

A `Munch` splits a text into a front and the rest, or refuses it; what it reads is always a true
split (`append_of_read`). Munches are built from single characters and runs by sequence, choice and
option, and every part reads as much as it can, without going back.
-/

namespace DeclFront

/-- A way to read characters off the front of a text: the characters read and the text
after them. -/
structure Munch where
  read : List Char → Option (List Char × List Char)
  append_of_read : ∀ {text front rest}, read text = some (front, rest) → front ++ rest = text

namespace Munch

/-- One character of a class. -/
def one (accepts : Char → Bool) : Munch where
  read
    | [] => none
    | c :: cs => if accepts c then some ([c], cs) else none
  append_of_read {text front rest} h := by
    cases text with
    | nil => simp at h
    | cons c cs =>
      by_cases hc : accepts c <;> simp [hc] at h
      obtain ⟨rfl, rfl⟩ := h
      rfl

/-- The longest run of characters of a class, which may be empty. -/
def many (accepts : Char → Bool) : Munch where
  read text := some (text.takeWhile accepts, text.dropWhile accepts)
  append_of_read {text front rest} h := by
    cases h
    exact List.takeWhile_append_dropWhile

/-- One munch, and then another on what it leaves. -/
def seq (first second : Munch) : Munch where
  read text :=
    match first.read text with
    | none => none
    | some (front, middle) =>
      match second.read middle with
      | none => none
      | some (back, rest) => some (front ++ back, rest)
  append_of_read {text front rest} h := by
    split at h
    · cases h
    · rename_i a middle ha
      split at h <;> cases h
      rename_i b hb
      rw [List.append_assoc, second.append_of_read hb, first.append_of_read ha]

/-- A munch, or nothing where it refuses. -/
def optional (munch : Munch) : Munch where
  read text := (munch.read text).or (some ([], text))
  append_of_read {text front rest} h := by
    cases hm : munch.read text with
    | none => simp [hm] at h; simp [← h.1, ← h.2]
    | some split =>
      rw [hm, Option.some_or] at h
      exact munch.append_of_read (hm.trans h)

/-- The first of two munches that reads something. -/
def orElse (first second : Munch) : Munch where
  read text := (first.read text).or (second.read text)
  append_of_read {text front rest} h := by
    cases hm : first.read text with
    | none => rw [hm, Option.none_or] at h; exact second.append_of_read h
    | some split =>
      rw [hm, Option.some_or] at h
      exact first.append_of_read (hm.trans h)

/-- One given character. -/
def char (c : Char) : Munch := one (· == c)

/-- The munch never reads an empty front. -/
def Consumes (munch : Munch) : Prop :=
  ∀ text front rest, munch.read text = some (front, rest) → front ≠ []

theorem consumes_one (accepts : Char → Bool) : (one accepts).Consumes := by
  intro text front rest h
  cases text with
  | nil => simp [one] at h
  | cons c cs =>
    by_cases hc : accepts c <;> simp [one, hc] at h
    simp [← h.1]

/-- A sequence consumes when its first part does. -/
theorem Consumes.seq_left {first : Munch} (h : first.Consumes) (second : Munch) :
    (first.seq second).Consumes := by
  intro text front rest hr
  simp only [Munch.seq] at hr
  split at hr
  · cases hr
  · rename_i a middle ha
    split at hr <;> cases hr
    simp [h _ _ _ ha]

theorem Consumes.seq_right {second : Munch} (first : Munch) (h : second.Consumes) :
    (first.seq second).Consumes := by
  intro text front rest hr
  simp only [Munch.seq] at hr
  split at hr
  · cases hr
  · rename_i a middle ha
    split at hr <;> cases hr
    rename_i b hb
    simp [h _ _ _ hb]

end Munch

end DeclFront
