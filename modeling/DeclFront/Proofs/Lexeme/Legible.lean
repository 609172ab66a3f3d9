import DeclFront.Proofs.Lexeme.FirstChar
import DeclFront.Proofs.Tiling

/-!
# Proofs/Lexeme/Legible — token kinds that are read back from their spelling

A text has no marks where its tokens end, so whether kinds that are spelled out one after another
are read back depends on what follows each.  `Legible` says that they are, in front of a given text.
The tokens of a text are legible in front of what follows them there (`legible_of_ofText`), and what
is legible to the end is what is read (`map_kind_ofText`).
-/

namespace DeclFront

namespace TokenKind

/-- The characters that some kinds spell. -/
def chars (kinds : List TokenKind) : List Char := kinds.flatMap (·.spelling.toList)

@[simp] theorem chars_nil : chars [] = [] := rfl

@[simp] theorem chars_cons (k : TokenKind) (ks : List TokenKind) :
    chars (k :: ks) = k.spelling.toList ++ chars ks := rfl

@[simp] theorem chars_append (front back : List TokenKind) :
    chars (front ++ back) = chars front ++ chars back := List.flatMap_append

theorem chars_map_kind (tokens : List Token) :
    chars (tokens.map Token.kind) = Token.chars tokens := List.flatMap_map _ _ tokens

/-- A token of the kind is read where its spelling stands in front of `rest`. -/
def LegibleBefore (k : TokenKind) (rest : List Char) : Prop :=
  ∃ c cs, k.spelling.toList = c :: cs ∧ Lexeme.next c (cs ++ rest) = ⟨k, c :: cs, rest⟩

/-- **The kinds are read back**, one after another, where their spelling stands in front of
`rest`. -/
def Legible : List TokenKind → List Char → Prop
  | [], _ => True
  | k :: ks, rest => k.LegibleBefore (chars ks ++ rest) ∧ Legible ks rest

variable {ks ls : List TokenKind} {rest : List Char}

@[simp] theorem legible_nil (rest : List Char) : Legible [] rest := trivial

/-- Kinds are legible one by one, each in front of the characters of those behind it. -/
theorem legible_cons_iff {k : TokenKind} :
    Legible (k :: ks) rest ↔ k.LegibleBefore (chars ks ++ rest) ∧ Legible ks rest := Iff.rfl

/-- Kinds in two parts are legible when the first are in front of the second. -/
theorem legible_append_iff :
    Legible (ks ++ ls) rest ↔ Legible ks (chars ls ++ rest) ∧ Legible ls rest := by
  induction ks with
  | nil => exact (and_iff_right trivial).symm
  | cons k ks ih =>
    rw [List.cons_append, legible_cons_iff, legible_cons_iff, ih, chars_append, List.append_assoc,
      and_assoc]

/-- **The tokens of a text are legible** in front of what follows them in it. -/
theorem legible_of_ofText {path : String} {p : Position} {text : List Char}
    {front back : List Token} (h : Token.ofText path p text = front ++ back) :
    Legible (front.map Token.kind) (Token.chars back) := by
  induction front generalizing p text with
  | nil => exact trivial
  | cons t front ih =>
    rcases text with _ | ⟨c, cs⟩
    · simp at h
    rw [Token.ofText, List.cons_append] at h
    obtain ⟨ht, hrest⟩ := List.cons.inj h
    refine ⟨?_, ih hrest⟩
    have hbegins := Lexeme.begins_next c cs
    have hkind : t.kind = (Lexeme.next c cs).kind := congrArg Token.kind ht.symm
    have hafter : chars (front.map Token.kind) ++ Token.chars back = (Lexeme.next c cs).rest := by
      rw [chars_map_kind, ← Token.chars_append, ← hrest, Token.chars_ofText]
    obtain ⟨d, ds, hchars⟩ := List.exists_cons_of_ne_nil hbegins.chars_ne_nil
    have htext := hbegins.chars_append_rest
    rw [hchars, List.cons_append] at htext
    obtain ⟨rfl, hds⟩ := List.cons.inj htext
    refine ⟨d, ds, by rw [hkind, hbegins.spelling_eq, hchars], ?_⟩
    rw [hafter, hds, hkind, ← hchars]

/-- **What is legible to the end is what is read.** -/
theorem map_kind_ofText (path : String) (p : Position) (h : Legible ks []) :
    (Token.ofText path p (chars ks)).map Token.kind = ks := by
  induction ks generalizing p with
  | nil => rw [chars_nil, Token.ofText_nil, List.map_nil]
  | cons k ks ih =>
    obtain ⟨⟨c, cs, hk, hnext⟩, hks⟩ := h
    rw [List.append_nil] at hnext
    rw [chars_cons, hk, List.cons_append, Token.ofText, List.map_cons]
    simp only [hnext]
    rw [ih _ hks]

/-! ## Kinds that are read almost anywhere -/

/-- A delimiter is legible unless it may be read as the start of something longer. -/
theorem legibleBefore_punctuator {p : Punctuator} {c : Char}
    (hp : Punctuator.ofDelimiter? c = some p) (hquote : c ≠ '\x60')
    (hpoint : c = '.' → rest.head? ≠ some '.') : (punctuator p).LegibleBefore rest :=
  ⟨c, [], Punctuator.spelling_of_ofDelimiter? hp, Lexeme.next_delimiter hp hquote hpoint⟩

/-- A control character is legible in front of anything. -/
theorem legibleBefore_control (k : Control) (rest : List Char) :
    (control k).LegibleBefore rest :=
  ⟨k.char, [], String.toList_singleton k.char, Lexeme.next_control k.ofChar?_char⟩

end TokenKind

end DeclFront
