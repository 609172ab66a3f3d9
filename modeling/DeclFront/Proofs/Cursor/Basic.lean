import DeclFront.Proofs.Grammar.Terminals

/-!
# Proofs/Cursor/Basic — a place among the tokens, kept as indices

    … t  trivia  u …
      │          │
      previous   position

The rules of the grammar read a list of terminals.  A program that keeps an array of tokens has two
indices in its place, a *cursor*: that of the token taken last, and that of the next significant
one.  Nothing but `advance` moves it.

* `KeepsPlace.next` — taking a token keeps what the indices say about the tokens taken so far.
* `IsRegular.terminals_eq_cons` — the token at the cursor is the first of the terminals behind the
  token taken last, and the trivia in front of it is what lies between the two indices.
-/

namespace DeclFront

/-- A place among the tokens of a stream. -/
structure Cursor where
  stream : TokenStream
  /-- The index of the next significant token, or the number of tokens at the end. -/
  position : Nat
  /-- The index of the token taken last. -/
  previous : Option Nat
deriving DecidableEq, Repr

namespace Cursor

/-- The first index from `n` on at which no trivia stands. -/
def skipTrivia (tokens : List Token) (n : Nat) : Nat :=
  n + (tokens.drop n).findIdx (!·.isTrivia)

/-- The cursor at the first significant token. -/
def start (s : TokenStream) : Cursor := ⟨s, skipTrivia s.tokens 0, none⟩

/-- The token at the cursor. -/
def peek (c : Cursor) : Option Token := c.stream.tokens[c.position]?

/-- The cursor behind the token at `c` and the trivia after it. -/
def next (c : Cursor) : Cursor :=
  ⟨c.stream, skipTrivia c.stream.tokens (c.position + 1), some c.position⟩

/-- Takes the token at the cursor, if there is one. -/
def advance (c : Cursor) : Option Token × Cursor :=
  match c.peek with
  | some t => (some t, c.next)
  | none => (none, c)

/-- The token at the cursor directly follows the token taken last. -/
def isAdjacent (c : Cursor) : Bool := c.previous.any (· + 1 == c.position)

variable {c d : Cursor} {t : Token} {tokens taken : List Token} {n j : Nat}

theorem advance_of_peek (h : c.peek = some t) : c.advance = (some t, c.next) := by
  rw [advance, h]

/-! ## Trivia -/

theorem le_skipTrivia (tokens : List Token) (n : Nat) : n ≤ skipTrivia tokens n :=
  Nat.le_add_right _ _

theorem skipTrivia_le (h : n ≤ tokens.length) : skipTrivia tokens n ≤ tokens.length := by
  have hle : (tokens.drop n).findIdx (!·.isTrivia) ≤ (tokens.drop n).length :=
    List.findIdx_le_length
  rw [List.length_drop] at hle
  rw [skipTrivia]
  omega

/-- No trivia stands where skipping ends. -/
theorem isTrivia_skipTrivia (h : tokens[skipTrivia tokens n]? = some t) : t.isTrivia = false := by
  rw [skipTrivia, ← List.getElem?_drop] at h
  obtain ⟨hlt, rfl⟩ := List.getElem?_eq_some_iff.1 h
  simpa using @List.findIdx_getElem _ _ _ hlt

/-- Nothing but trivia is skipped. -/
theorem isTrivia_of_lt_skipTrivia (hn : n ≤ j) (hj : j < skipTrivia tokens n)
    (h : tokens[j]? = some t) : t.isTrivia = true := by
  obtain ⟨k, rfl⟩ := Nat.exists_eq_add_of_le hn
  rw [← List.getElem?_drop] at h
  obtain ⟨hlt, rfl⟩ := List.getElem?_eq_some_iff.1 h
  simpa using List.not_of_lt_findIdx (Nat.lt_of_add_lt_add_left hj)

/-- The trivia that is skipped from an index on. -/
def skipped (tokens : List Token) (n : Nat) : List Token :=
  (tokens.drop n).takeWhile Token.isTrivia

theorem isTrivia_of_mem_skipped (h : t ∈ skipped tokens n) : t.isTrivia = true :=
  List.all_eq_true.1 List.all_takeWhile t h

/-- Skipping goes as far as there is trivia. -/
theorem length_skipped (tokens : List Token) (n : Nat) :
    n + (skipped tokens n).length = skipTrivia tokens n := by
  rw [skipTrivia, skipped, List.takeWhile_eq_take_findIdx_not, List.length_take,
    Nat.min_eq_left List.findIdx_le_length]

theorem take_skipTrivia (tokens : List Token) (n : Nat) :
    tokens.take (skipTrivia tokens n) = tokens.take n ++ skipped tokens n := by
  rw [skipTrivia, List.take_add, skipped, List.takeWhile_eq_take_findIdx_not]

/-- The tokens behind are the trivia skipped, and those behind it. -/
theorem drop_eq_skipped_append (tokens : List Token) (n : Nat) :
    tokens.drop n = skipped tokens n ++ tokens.drop (skipTrivia tokens n) := by
  rw [skipTrivia, ← List.drop_drop, ← List.dropWhile_eq_drop_findIdx_not, skipped,
    List.takeWhile_append_dropWhile]

/-! ## What the indices say -/

/-- **What a cursor says about the tokens taken** since the start of the stream. -/
structure KeepsPlace (s : TokenStream) (taken : List Token) (c : Cursor) : Prop where
  stream_eq : c.stream = s
  /-- The cursor is at the end of the tokens or at a significant one. -/
  position : c.position = s.tokens.length ∨ ∃ t, s.tokens[c.position]? = some t ∧ t.isTrivia = false
  previous_eq_none_iff : c.previous = none ↔ taken = []
  /-- The token taken last is the last significant one in front of the cursor. -/
  previous : ∀ i, c.previous = some i → i < c.position ∧
    (∃ t, s.tokens[i]? = some t ∧ taken.getLast? = some t ∧ t.isTrivia = false) ∧
      ∀ j t, i < j → j < c.position → s.tokens[j]? = some t → t.isTrivia = true
  /-- The tokens taken are the significant ones in front of the cursor, in order. -/
  taken_eq : taken = (s.tokens.take c.position).filter (!·.isTrivia)
  significant_eq : s.significant = taken ++ (s.tokens.drop c.position).filter (!·.isTrivia)
  isAdjacent_iff : c.isAdjacent = true ↔
    ∃ i, c.previous = some i ∧ ∀ j, i < j → ¬ j < c.position

/-- The cursor stands behind the token taken last and the trivia after it. -/
theorem keepsPlace_skipTrivia {s : TokenStream} {previous : Option Nat}
    (hn : n ≤ s.tokens.length) (hnone : previous = none ↔ taken = [])
    (hprevious : ∀ i, previous = some i → i + 1 = n ∧
      ∃ t, s.tokens[i]? = some t ∧ taken.getLast? = some t ∧ t.isTrivia = false)
    (htaken : taken = (s.tokens.take n).filter (!·.isTrivia)) :
    KeepsPlace s taken ⟨s, skipTrivia s.tokens n, previous⟩ := by
  have hle := le_skipTrivia s.tokens n
  have hskipped : (skipped s.tokens n).filter (!·.isTrivia) = [] := by
    rw [List.filter_eq_nil_iff]
    intro t ht
    simp [isTrivia_of_mem_skipped ht]
  have htaken' : taken = (s.tokens.take (skipTrivia s.tokens n)).filter (!·.isTrivia) := by
    rw [take_skipTrivia, List.filter_append, hskipped, List.append_nil, htaken]
  refine ⟨rfl, ?_, hnone, ?_, htaken', ?_, ?_⟩
  · rcases Nat.eq_or_lt_of_le (skipTrivia_le hn) with hend | hlt
    · exact .inl hend
    · exact .inr ⟨_, List.getElem?_eq_getElem hlt,
        isTrivia_skipTrivia (List.getElem?_eq_getElem hlt)⟩
  · intro i hi
    obtain ⟨rfl, hlast⟩ := hprevious i hi
    exact ⟨hle, hlast, fun j t hij hj hget => isTrivia_of_lt_skipTrivia hij hj hget⟩
  · rw [htaken', ← List.filter_append, List.take_append_drop]
    rfl
  · rw [isAdjacent, Option.any_eq_true]
    constructor
    · rintro ⟨i, hi, heq⟩
      have heq : i + 1 = skipTrivia s.tokens n := by simpa using heq
      exact ⟨i, hi, fun j hij hj => by simp only at hj; omega⟩
    · rintro ⟨i, hi, hbetween⟩
      -- The index behind the token taken last is not between the two, so it is the cursor's.
      have hlt := hbetween (i + 1) (Nat.lt_succ_self i)
      obtain ⟨hin, -⟩ := hprevious i hi
      refine ⟨i, hi, ?_⟩
      simp only [beq_iff_eq] at hlt ⊢
      omega

/-- At the start nothing has been taken. -/
theorem keepsPlace_start (s : TokenStream) : KeepsPlace s [] (start s) :=
  keepsPlace_skipTrivia (Nat.zero_le _) (by simp) (by simp) (by simp)

/-- **Taking a token keeps the place.** -/
theorem KeepsPlace.next {s : TokenStream} (h : KeepsPlace s taken c) (hpeek : c.peek = some t) :
    KeepsPlace s (taken ++ [t]) c.next := by
  obtain ⟨hlt, hget⟩ : ∃ hlt : c.position < s.tokens.length, s.tokens[c.position] = t := by
    rw [peek, h.stream_eq] at hpeek
    exact List.getElem?_eq_some_iff.1 hpeek
  have hsignificant : t.isTrivia = false := by
    rcases h.position with hend | ⟨u, hu, hsignificant⟩
    · exact absurd hend (Nat.ne_of_lt hlt)
    · rw [List.getElem?_eq_getElem hlt, hget] at hu
      exact Option.some.inj hu ▸ hsignificant
  rw [Cursor.next, h.stream_eq]
  refine keepsPlace_skipTrivia hlt (by simp) ?_ ?_
  · rintro i hi
    obtain rfl := Option.some.inj hi
    exact ⟨rfl, t, by rw [List.getElem?_eq_getElem hlt, hget], by simp, hsignificant⟩
  · rw [List.take_succ_eq_append_getElem hlt, List.filter_append, ← h.taken_eq, hget]
    simp [hsignificant]

/-! ## What the rules read from a cursor on -/

/-- The index behind the token taken last. -/
def behind (c : Cursor) : Nat := c.previous.elim 0 (· + 1)

/-- The terminals behind the token taken last. -/
def terminals (c : Cursor) : List Terminal := Terminal.ofTokens (c.stream.tokens.drop c.behind)

/-- The trivia in front of the cursor. -/
def leading (c : Cursor) : List Token := skipped c.stream.tokens c.behind

/-- Between the token taken last and the cursor there is trivia, and no more of it behind. -/
def IsRegular (c : Cursor) : Prop := c.position = skipTrivia c.stream.tokens c.behind

theorem isRegular_start (s : TokenStream) : (start s).IsRegular := rfl

theorem isRegular_next (c : Cursor) : c.next.IsRegular := rfl

/-- At the start all terminals are to be read. -/
theorem terminals_start (s : TokenStream) : (start s).terminals = Terminal.ofTokens s.tokens := rfl

namespace IsRegular

/-- The indices differ by the trivia between the two tokens. -/
theorem position_eq (hc : c.IsRegular) : c.position = c.behind + c.leading.length :=
  hc.trans (length_skipped _ _).symm

/-- No terminal is left where no token is. -/
theorem terminals_eq_nil (hc : c.IsRegular) (h : c.peek = none) : c.terminals = [] := by
  have hend : c.stream.tokens.drop c.position = [] :=
    List.drop_eq_nil_of_le (List.getElem?_eq_none_iff.1 h)
  rw [terminals, drop_eq_skipped_append, ← hc, hend, List.append_nil]
  exact Terminal.ofTokens_trivia fun t => isTrivia_of_mem_skipped

/-- **The token at the cursor, with the trivia in front of it, is the first of the terminals.** -/
theorem terminals_eq_cons (hc : c.IsRegular) (h : c.peek = some t) :
    c.terminals = ⟨c.leading, t⟩ :: c.next.terminals := by
  have hsignificant : t.isTrivia = false := by
    rw [peek, hc] at h
    exact isTrivia_skipTrivia h
  obtain ⟨hlt, rfl⟩ := List.getElem?_eq_some_iff.1 h
  rw [terminals, drop_eq_skipped_append, ← hc, List.drop_eq_getElem_cons hlt]
  exact Terminal.ofTokens_leading_append _ (fun t => isTrivia_of_mem_skipped) hsignificant

theorem peek_eq_none (hc : c.IsRegular) (h : c.terminals = []) : c.peek = none := by
  cases hpeek : c.peek with
  | none => rfl
  | some t =>
    rw [hc.terminals_eq_cons hpeek] at h
    cases h

/-- Where a terminal is left, its token stands at the cursor. -/
theorem peek_of_terminals {u : Terminal} {us : List Terminal} (hc : c.IsRegular)
    (h : c.terminals = u :: us) : c.peek = some u.token := by
  cases hpeek : c.peek with
  | none =>
    rw [hc.terminals_eq_nil hpeek] at h
    cases h
  | some t =>
    rw [hc.terminals_eq_cons hpeek] at h
    obtain ⟨rfl, -⟩ := List.cons_eq_cons.1 h
    rfl

/-- The token at the cursor is adjacent to the one taken last when no trivia stands between. -/
theorem isAdjacent_eq (hc : c.IsRegular) (h : c.previous ≠ none) :
    c.isAdjacent = c.leading.isEmpty := by
  obtain ⟨i, hi⟩ := Option.ne_none_iff_exists'.1 h
  have hbehind : c.behind = i + 1 := by rw [behind, hi, Option.elim_some]
  rw [isAdjacent, hi, Option.any_some, hc.position_eq, hbehind, Bool.eq_iff_iff]
  simp

end IsRegular

end Cursor

end DeclFront
