import DeclFront.Proofs.StandAlone
import Mathlib.Data.Nat.Count
import Mathlib.Data.Nat.Find
import Mathlib.Data.Nat.SuccPred
import Mathlib.Order.Interval.Set.Monotone

/-!
# Proofs/Boundary — what is known at a boundary between two tokens

Two things, each at every boundary.

* **Where it is** can be counted out (`TokenStream.isLocated_ofText`): its line is one more than the
  line breaks in front of it, and its column one more than the UTF-16 code units behind the last of
  them.  A carriage return in front of a line feed is no line break, wherever the boundary falls.
* **Reading can start anew there** (`TokenStream.relocate_ofText_drop`): the rest of the text, read
  as a text of its own, gives the tokens that stand behind the boundary, moved to where it is.
-/

namespace DeclFront

/-! ## Positions counted out -/

/-- A line of the text ends with the character at place `i`: a line feed, or a carriage return that
no line feed follows in the text. -/
def IsLineBreak (text : List Char) (i : Nat) : Prop :=
  text[i]? = some '\n' ∨ (text[i]? = some '\r' ∧ text[i + 1]? ≠ some '\n')

instance (text : List Char) : DecidablePred (IsLineBreak text) :=
  fun _ => inferInstanceAs (Decidable (_ ∨ _))

/-- Where the line begins that the first `n` characters of the text end in: behind the last of their
line breaks. -/
def lineStart (text : List Char) (n : Nat) : Nat :=
  Nat.findGreatest (fun k => 0 < k ∧ IsLineBreak text (k - 1)) n

namespace Position

variable {text : List Char} {n : Nat}

/-- The position behind the first `n` characters of the text: the line breaks among them and the
code units behind the last of these, each counted from one. -/
def behind (text : List Char) (n : Nat) : Position :=
  ⟨1 + Nat.count (IsLineBreak text) n,
    1 + (((text.take n).drop (lineStart text n)).map utf16Units).sum⟩

/-- A character ends a line just where a line break is counted. -/
theorem endsLine_iff_isLineBreak {c : Char} (hc : text[n]? = some c) :
    endsLine c text[n + 1]? = true ↔ IsLineBreak text n := by
  simp [endsLine, IsLineBreak, hc]

/-- Past a line break a line starts; past any other character it goes on. -/
theorem lineStart_succ (text : List Char) (n : Nat) :
    lineStart text (n + 1) = if IsLineBreak text n then n + 1 else lineStart text n := by
  simp [lineStart, Nat.findGreatest_succ]

theorem lineStart_le (text : List Char) (n : Nat) : lineStart text n ≤ n := Nat.findGreatest_le n

theorem behind_zero (text : List Char) : behind text 0 = first := by
  simp [behind, first]

/-- One character more is passed as `Position.past` does it. -/
theorem behind_succ {c : Char} (hc : text[n]? = some c) :
    behind text (n + 1) = (behind text n).past c text[n + 1]? := by
  have htake : text.take (n + 1) = text.take n ++ [c] := by rw [List.take_add_one, hc]; rfl
  have hlength : (text.take n).length = n := by
    rw [List.length_take, Nat.min_eq_left (List.getElem?_eq_some_iff.1 hc).1.le]
  by_cases hbreak : IsLineBreak text n
  · rw [past, if_pos ((endsLine_iff_isLineBreak hc).2 hbreak), behind, Nat.count_succ,
      if_pos hbreak, lineStart_succ, if_pos hbreak, List.drop_of_length_le (List.length_take_le _ _)]
    rfl
  · rw [past, if_neg (mt (endsLine_iff_isLineBreak hc).1 hbreak), behind, Nat.count_succ,
      if_neg hbreak, lineStart_succ, if_neg hbreak, htake,
      List.drop_append_of_le_length (hlength.symm ▸ lineStart_le text n)]
    simp [behind, Nat.add_assoc]

/-- **Moving over the front of a text is counting in it.** -/
theorem pastAll_first (front back : List Char) :
    first.pastAll front back = behind (front ++ back) front.length := by
  induction front using List.reverseRecOn generalizing back with
  | nil => exact (behind_zero back).symm
  | append_singleton front c ih =>
    have hc : (front ++ c :: back)[front.length]? = some c := by simp
    have hnext : (front ++ c :: back)[front.length + 1]? = back.head? := by
      simp [List.getElem?_append, List.head?_eq_getElem?]
    rw [pastAll_append, ih, List.append_assoc, List.singleton_append, List.length_append,
      List.length_singleton, behind_succ hc, hnext]
    rfl

/-- **Places further on in a text have greater positions.** -/
theorem strictMonoOn_behind (text : List Char) :
    StrictMonoOn (behind text) (Set.Iic text.length) := by
  refine strictMonoOn_Iic_of_lt_succ fun n hn => ?_
  rw [Nat.succ_eq_succ, behind_succ (List.getElem?_eq_getElem hn)]
  exact lt_past _ _ _

end Position

/-- More tokens have more characters, since none has no spelling. -/
theorem Token.strictMonoOn_length_chars {tokens : List Token}
    (h : ∀ t ∈ tokens, t.spelling ≠ "") :
    StrictMonoOn (fun n => (Token.chars (tokens.take n)).length) (Set.Iic tokens.length) := by
  refine strictMonoOn_Iic_of_lt_succ fun n hn => ?_
  have hspelling : tokens[n].spelling.toList ≠ [] := fun hnil =>
    h _ (List.getElem_mem hn) (String.toList_eq_nil_iff.1 hnil)
  have hsplit : tokens.take (n + 1) = tokens.take n ++ [tokens[n]] :=
    (List.take_concat_get' tokens n hn).symm
  simp only [Nat.succ_eq_succ, hsplit, chars_append, chars_cons, chars_nil, List.append_nil,
    List.length_append]
  exact Nat.lt_add_of_pos_right (List.length_pos_iff.2 hspelling)

namespace TokenStream

variable {path text : String} {front back : List Token}

/-! ## Where a boundary is -/

/-- The tokens stand where their text has them: a token behind the first `n` characters starts at
the position behind these, and stops at the one behind its own characters as well. -/
structure IsLocated (s : TokenStream) (text : List Char) : Prop where
  range_eq : ∀ front t back, s.tokens = front ++ t :: back →
    t.range = ⟨⟨.behind text (Token.chars front).length, s.path⟩,
      ⟨.behind text (Token.chars (front ++ [t])).length, s.path⟩⟩
  /-- Boundaries further on have greater positions. -/
  strictMonoOn : StrictMonoOn
    (fun n => Position.behind text (Token.chars (s.tokens.take n)).length) (Set.Iic s.tokens.length)

/-- **The positions of tokens are counted out in their text**, whatever the text is. -/
theorem isLocated_ofText (path text : String) : (ofText path text).IsLocated text.toList where
  range_eq front t back h := by
    have htext : Token.chars front ++ (t.spelling.toList ++ Token.chars back) = text.toList := by
      rw [← Token.chars_cons, ← Token.chars_append, ← h, chars_tokens_ofText]
    have hchars : Token.chars (front ++ [t]) = Token.chars front ++ t.spelling.toList := by simp
    rw [(Token.range_of_ofText_append h).2, hchars, Position.pastAll_first, Position.pastAll_first,
      List.append_assoc, htext]
    rfl
  strictMonoOn := by
    have hspelling : ∀ t ∈ (ofText path text).tokens, t.spelling ≠ "" := fun _ ht =>
      Token.spelling_ne_of_mem_ofText ht
    have hchars := Token.strictMonoOn_length_chars hspelling
    refine (Position.strictMonoOn_behind text.toList).comp hchars fun n _ => ?_
    rw [Set.mem_Iic, ← chars_tokens_ofText path text]
    conv_rhs => rw [← List.take_append_drop n (ofText path text).tokens, Token.chars_append]
    rw [List.length_append]
    exact Nat.le_add_right _ _

/-- A line feed and the carriage return in front of it are one line break, at the line feed. -/
example : (List.range 4).map (Position.behind ['a', '\r', '\n']) =
    [⟨1, 1⟩, ⟨1, 2⟩, ⟨1, 3⟩, ⟨2, 1⟩] := by decide

/-! ## Reading from a boundary on -/

/-- The tokens in front of a boundary stop where those behind it start. -/
theorem stop_eq_of_ofText (h : (ofText path text).tokens = front ++ back) :
    stop ⟨path, front⟩ =
      ⟨Position.first.pastAll (Token.chars front) (Token.chars back), path⟩ := by
  rcases List.eq_nil_or_concat front with rfl | ⟨front, t, rfl⟩
  · rfl
  · rw [List.concat_eq_append, List.append_assoc, List.singleton_append] at h
    simp [stop, (Token.range_of_ofText_append h).2]

/-- **Reading can start anew at any boundary**: the rest of the text, as a text of its own, gives
the tokens behind the boundary, when the text starts where those in front of it stop. -/
theorem relocate_ofText_drop (h : (ofText path text).tokens = front ++ back) (other : String) :
    (∀ t ∈ back.head?, t.range.start = stop ⟨path, front⟩) ∧
      (ofText other (String.ofList (text.toList.drop (Token.chars front).length))).tokens.map
          (Token.relocate (stop ⟨path, front⟩).shift) = back := by
  have hrest : text.toList.drop (Token.chars front).length = Token.chars back :=
    (chars_eq_drop h).symm
  have hback := Token.ofText_append h
  rw [stop_eq_of_ofText h]
  constructor
  · intro t ht
    obtain ⟨others, rfl⟩ := List.head?_eq_some_iff.1 ht
    rw [(Token.ofText_eq_cons hback.symm).2]
  · rw [hrest, ofText, String.toList_ofList, Token.map_relocate_ofText _ _ le_rfl,
      Position.shift_first, ← hback]

/-- The text of the line feed in the pair that follows `a`, and of what stands behind it, starts at
the third column. -/
theorem relocate_ofText_lineFeed :
    let front : List Token := [⟨.identifier "a", ⟨⟨⟨1, 1⟩, "p"⟩, ⟨⟨1, 2⟩, "p"⟩⟩⟩,
      ⟨.control .carriageReturn, ⟨⟨⟨1, 2⟩, "p"⟩, ⟨⟨1, 3⟩, "p"⟩⟩⟩]
    let back : List Token := [⟨.control .lineFeed, ⟨⟨⟨1, 3⟩, "p"⟩, ⟨⟨2, 1⟩, "p"⟩⟩⟩,
      ⟨.identifier "b", ⟨⟨⟨2, 1⟩, "p"⟩, ⟨⟨2, 2⟩, "p"⟩⟩⟩]
    (ofText "p" "a\r\nb").tokens = front ++ back ∧
      (ofText "q" "\nb").tokens.map (Token.relocate (⟨⟨1, 3⟩, "p"⟩ : Location).shift) = back := by
  intro front back
  have hsplit : (ofText "p" "a\r\nb").tokens = front ++ back := by decide +kernel
  exact ⟨hsplit, (relocate_ofText_drop hsplit "q").2⟩

end TokenStream

end DeclFront
