import DeclFront.Proofs.Lexeme.LineEnd

/-!
# Proofs/Lines — reading undoes writing, one token to a line

Take any tokens, from whatever texts, and write each on a line of its own: what is read there are
these tokens again, each with its line end (`map_kind_ofText_lines`).  No token runs together with
the next, none takes in the line end behind it, and none is told by the text that it came from.
Invalid characters and block comments that nothing closes are left out (`legibleBefore_lineFeed`
says why).
-/

namespace DeclFront

namespace TokenKind

variable {k : TokenKind} {kinds : List TokenKind}

/-- The kind is that of a token in some text. -/
def Occurs (k : TokenKind) : Prop :=
  ∃ path text, ∃ t ∈ (TokenStream.ofText path text).tokens, t.kind = k

/-- A kind that occurs in a text is legible in front of what follows it there. -/
theorem Occurs.exists_legibleBefore (h : k.Occurs) : ∃ rest, k.LegibleBefore rest := by
  obtain ⟨path, text, t, ht, rfl⟩ := h
  obtain ⟨front, back, hsplit⟩ := List.append_of_mem ht
  have hlegible := legible_of_ofText (hsplit.trans (List.append_cons front t back))
  rw [List.map_append, legible_append_iff] at hlegible
  exact ⟨_, hlegible.2.1⟩

/-- The kinds, a line end behind each. -/
def lines (kinds : List TokenKind) : List TokenKind :=
  kinds.flatMap fun k => [k, .control .lineFeed]

/-- One kind a line, the characters are the spellings with line ends. -/
theorem chars_lines (kinds : List TokenKind) :
    chars (lines kinds) = (String.join (kinds.map fun k => k.spelling ++ "\n")).toList := by
  rw [lines, chars, List.flatMap_assoc, String.toList_join, List.flatMap_map]
  simp [TokenKind.spelling, Control.char]

/-- **Kinds that are written one to a line are read back.** -/
theorem legible_lines (hoccurs : ∀ k ∈ kinds, k.Occurs)
    (hvalid : ∀ k ∈ kinds, ∀ text, k ≠ .invalid text)
    (hterminated : ∀ k ∈ kinds, k.isUnterminated = false) : Legible (lines kinds) [] := by
  induction kinds with
  | nil => exact trivial
  | cons k kinds ih =>
    rw [List.forall_mem_cons] at hoccurs hvalid hterminated
    obtain ⟨rest, hk⟩ := hoccurs.1.exists_legibleBefore
    refine ⟨legibleBefore_lineFeed hk hvalid.1 hterminated.1 _, legibleBefore_control _ _, ?_⟩
    exact ih hoccurs.2 hvalid.2 hterminated.2

end TokenKind

namespace TokenStream

open TokenKind

/-- Only the last token of a text can be a block comment that nothing ends. -/
theorem eq_nil_of_isUnterminated {path text : String} {front back : List Token} {t : Token}
    (h : (ofText path text).tokens = front ++ t :: back) (ht : t.kind.isUnterminated = true) :
    back = [] := by
  rcases back with _ | ⟨u, back⟩
  · rfl
  · have hsplit : front ++ t :: u :: back = front ++ [t, u] ++ back := by simp
    have hlegible := legible_of_ofText (h.trans hsplit)
    rw [List.map_append, legible_append_iff] at hlegible
    obtain ⟨-, hlegible, ⟨d, ds, hu, -⟩, -⟩ := hlegible
    rw [List.map_singleton, chars_cons, hu] at hlegible
    rw [isUnterminated_of_legibleBefore hlegible] at ht
    cases ht

/-- **Reading undoes writing**: kinds that occur in some texts, each written on a line of its own,
are the kinds that are read there, with the line ends. -/
theorem map_kind_ofText_lines (path : String) {kinds : List TokenKind}
    (hoccurs : ∀ k ∈ kinds, k.Occurs) (hvalid : ∀ k ∈ kinds, ∀ text, k ≠ .invalid text)
    (hterminated : ∀ k ∈ kinds, k.isUnterminated = false) :
    (ofText path (String.join (kinds.map fun k => k.spelling ++ "\n"))).tokens.map Token.kind =
      kinds.flatMap fun k => [k, .control .lineFeed] := by
  rw [ofText, ← chars_lines]
  exact map_kind_ofText path .first (legible_lines hoccurs hvalid hterminated)

/-- A number in front of a point, an operator that a comment cuts off, and the comment. -/
theorem map_kind_ofText_lines_number :
    let kinds : List TokenKind := [.literal (.number .hexadecimalInteger "0x1"),
      .punctuator .period, .operator "+", .comment "//a"]
    (ofText "p" "0x1.+//a").tokens.map Token.kind = kinds ∧
      (ofText "q" "0x1\n.\n+\n//a\n").tokens.map Token.kind =
        kinds.flatMap fun k => [k, .control .lineFeed] := by
  intro kinds
  have hkinds : (ofText "p" "0x1.+//a").tokens.map Token.kind = kinds := by decide +kernel
  have hoccurs : ∀ k ∈ kinds, k.Occurs := by
    rw [← hkinds]
    intro k hk
    obtain ⟨t, ht, rfl⟩ := List.mem_map.1 hk
    exact ⟨"p", "0x1.+//a", t, ht, rfl⟩
  have hvalid : ∀ k ∈ kinds, ∀ text, k ≠ .invalid text := by
    simp [kinds]
  exact ⟨hkinds, map_kind_ofText_lines "q" hoccurs hvalid (by decide)⟩

end TokenStream

end DeclFront
