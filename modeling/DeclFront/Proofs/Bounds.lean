import DeclFront.Proofs.Grammar.Parentheses
import DeclFront.Proofs.Lexeme.Nesting
import DeclFront.Proofs.Lexeme.Slice

/-!
# Proofs/Bounds — nothing is taken that is not there

    characters   place ─▸ place + n      inside the text                      (`Lexeme.LiesIn`)
    counts       ( ) of an interpolation, /* */ of a comment, ( ) of a clause: never below zero
    tokens       opening ─▸ closing      inside the stream                    (`Grammar.IsSlice`)

Each count is run a second time with a subtraction that gives nothing at zero, and gives the same as
the first.  For a string this holds since an interpolation has a parenthesis open from its first
character on (`StringMode.CountsOpen.after`), for a clause and a comment since the count starts
behind the mark that opens it.
-/

namespace DeclFront

open Grammar

/-! ## Interpolations -/

namespace StringMode

/-- The mode after a character, which gives nothing at all where a parenthesis is to be closed and
none is open. -/
def checkedAfter : StringMode → Char → Option (Option StringMode)
  | interpolation 0, ')' => none
  | mode, c => some (mode.after c)

/-- Inside an interpolation a parenthesis is open. -/
def CountsOpen (mode : StringMode) : Prop := ∀ depth, mode = interpolation depth → depth ≠ 0

/-- Outside interpolations nothing is counted. -/
theorem countsOpen_plain : plain.CountsOpen := by
  rintro depth ⟨⟩

/-- One character further on a parenthesis is still open, or the interpolation is over. -/
theorem CountsOpen.after {mode next : StringMode} {c : Char} (h : mode.CountsOpen)
    (hnext : mode.after c = some next) : next.CountsOpen := by
  rintro depth rfl
  cases mode with
  | plain => simp only [StringMode.after] at hnext; grind
  | escaped => simp only [StringMode.after] at hnext; grind
  | interpolation before =>
    -- Where the last parenthesis is closed the mode is plain again.
    have hbefore := h before rfl
    simp only [StringMode.after] at hnext
    grind

/-- With the parentheses counted so far, the checked step does not fail. -/
theorem CountsOpen.checkedAfter_eq {mode : StringMode} (h : mode.CountsOpen) (c : Char) :
    mode.checkedAfter c = some (mode.after c) := by
  unfold checkedAfter
  split
  · exact absurd rfl (h 0 rfl)
  · rfl

end StringMode

namespace StringBody

/-- The body of a string, which gives nothing at all where the count of parentheses would go below
zero. -/
def checkedRead : StringMode → List Char → Option (Option StringBody)
  | _, [] => some none
  | mode, c :: cs =>
    if mode.closes c then some (some ⟨[], false, cs⟩)
    else
      match mode.checkedAfter c with
      | none => none
      | some none => some none
      | some (some next) =>
        (checkedRead next cs).map fun found => found.map fun body =>
          ⟨c :: body.raw, mode.opens c || body.interpolated, body.rest⟩

/-- **A parenthesis is open whenever one is closed** in an interpolation. -/
theorem checkedRead_eq {mode : StringMode} (h : mode.CountsOpen) (text : List Char) :
    checkedRead mode text = some (read mode text) := by
  induction text generalizing mode with
  | nil => rfl
  | cons c cs ih =>
    rw [checkedRead, read, h.checkedAfter_eq]
    split
    · rfl
    · cases hnext : mode.after c with
      | none => rfl
      | some next =>
        simp only [ih (h.after hnext)]
        rfl

end StringBody

/-! ## Clauses -/

namespace Grammar.ArgumentClause

/-- The rest of a clause, which gives nothing at all where the count of parentheses would go below
zero. -/
def checkedRead : (depth : Nat) → List Terminal → Option (Option ArgumentClause)
  | _, [] => some none
  | depth, t :: ts =>
    if t.isPunctuator .leftParen then
      (checkedRead (depth + 1) ts).map fun found => found.map (cons t)
    else if t.isPunctuator .rightParen then
      if depth = 0 then none
      else if depth - 1 = 0 then some (some ⟨[], t, ts⟩)
      else (checkedRead (depth - 1) ts).map fun found => found.map (cons t)
    else (checkedRead depth ts).map fun found => found.map (cons t)

/-- With a parenthesis open, the checked reader does not fail. -/
theorem checkedRead_eq {depth : Nat} (h : depth ≠ 0) (ts : List Terminal) :
    checkedRead depth ts = some (read depth ts) := by
  induction ts generalizing depth with
  | nil => rfl
  | cons t ts ih =>
    rw [checkedRead, read, if_neg h, ih depth.succ_ne_zero, ih h]
    split
    · rfl
    · split
      · split
        · rfl
        · rename_i hlast
          rw [ih hlast]
          rfl
      · rfl

/-- **A parenthesis is open whenever one is closed** in a clause, from its opening one on. -/
theorem checkedRead_opening {opening : Terminal} (h : opening.isPunctuator .leftParen = true)
    (ts : List Terminal) :
    checkedRead 0 (opening :: ts) = some ((read 1 ts).map (cons opening)) := by
  rw [checkedRead, if_pos h, checkedRead_eq Nat.one_ne_zero]
  rfl

end Grammar.ArgumentClause

/-! ## Tokens of a clause -/

namespace Grammar

variable {stream : List Token} {opening : Terminal} {ts : List Terminal} {clause : ArgumentClause}

/-- The tokens from one place to another, both in the stream and the second behind the first, are
those of the clause. -/
structure IsSlice (stream : List Token) (opening : Token) (clause : ArgumentClause)
    (first last : Nat) : Prop where
  first_lt_last : first < last
  last_lt_length : last < stream.length
  first_eq : stream[first]? = some opening
  last_eq : stream[last]? = some clause.closing.token
  text_eq : clause.text opening =
    String.join (((stream.drop first).take (last + 1 - first)).map Token.spelling)

/-- A clause that is read is written out by its tokens, one behind the other. -/
theorem ArgumentClause.exists_tokens (hsuffix : opening :: ts <:+ Terminal.ofTokens stream)
    (hread : ArgumentClause.read 1 ts = some clause) :
    ∃ front inner back,
      stream = front ++ (opening.token :: (inner ++ [clause.closing.token]) ++ back) ∧
        clause.text opening.token = String.join
          ((opening.token :: (inner ++ [clause.closing.token])).map Token.spelling) := by
  obtain ⟨-, -, hts⟩ := ArgumentClause.closesAll_of_read hread
  obtain ⟨-, front, back, hstream⟩ := Terminal.exists_eq_of_infix hsuffix.isInfix
  refine ⟨front ++ opening.leading, Terminal.tokens clause.inner ++ clause.closing.leading,
    Terminal.tokens clause.rest ++ back, ?_, ?_⟩
  · rw [hstream, hts, Terminal.tokens_cons, Terminal.tokens_append, Terminal.tokens_cons]
    simp
  · apply String.toList_injective
    simp [ArgumentClause.text, ← Terminal.join_tokens, Terminal.spelling, String.toList_join,
      List.flatMap_map]

/-- **A clause that is read is a slice of the tokens**, from its opening parenthesis to the closing
one. -/
theorem exists_isSlice (hsuffix : opening :: ts <:+ Terminal.ofTokens stream)
    (hread : ArgumentClause.read 1 ts = some clause) :
    ∃ first last, IsSlice stream opening.token clause first last := by
  obtain ⟨front, inner, back, rfl, htext⟩ := ArgumentClause.exists_tokens hsuffix hread
  refine ⟨front.length, front.length + 1 + inner.length, by omega, ?_, ?_, ?_, ?_⟩
  · simp only [List.length_append, List.length_cons, List.length_nil]
    omega
  · simp
  · have hindex : front.length + 1 + inner.length - front.length = inner.length + 1 := by omega
    rw [List.getElem?_append_right (by omega), hindex]
    simp
  · have hlength : front.length + 1 + inner.length + 1 - front.length =
        (opening.token :: (inner ++ [clause.closing.token])).length := by
      simp only [List.length_append, List.length_cons, List.length_nil]
      omega
    rw [htext, List.drop_left, hlength, List.take_left]

end Grammar

/-! ## Texts -/

/-- What is taken from a text, off a count or from the tokens of the text is always there. -/
structure TokenStream.StaysInBounds (path text : String) : Prop where
  /-- What a recognizer finds, where the reader of the text may be, lies in the text. -/
  liesIn : ∀ front back, (ofText path text).tokens = front ++ back →
    ∀ recognizer ∈ Lexeme.singleRecognizers, ∀ lexeme,
      recognizer (Token.chars back) = some lexeme →
        lexeme.LiesIn text.toList (Token.chars front).length
  /-- So does what is taken there: what the first of the recognizers finds, or one character. -/
  liesIn_next : ∀ front back, (ofText path text).tokens = front ++ back →
    ∀ c cs, Token.chars back = c :: cs →
      Lexeme.next c cs =
          (Recognizer.firstOf Lexeme.singleRecognizers (c :: cs)).getD (.invalid c cs) ∧
        (Lexeme.next c cs).LiesIn text.toList (Token.chars front).length
  /-- An interpolation closes no parenthesis that is not open. -/
  checkedRead_string : ∀ cs, '\"' :: cs <:+ text.toList →
    StringBody.checkedRead .plain cs = some (StringBody.read .plain cs)
  /-- A comment closes no mark that is not open. -/
  checkedComment : ∀ cs, '/' :: '*' :: cs <:+ text.toList →
    checkedComment 0 ('/' :: '*' :: cs) =
      some ('/' :: '*' :: (blockComment 1 cs).1, (blockComment 1 cs).2)
  /-- A clause closes no parenthesis that is not open. -/
  checkedRead_clause : ∀ (opening : Terminal) ts,
    opening :: ts <:+ Terminal.ofTokens (ofText path text).tokens → opensClause opening = true →
      ArgumentClause.checkedRead 0 (opening :: ts) =
        some ((ArgumentClause.read 1 ts).map (.cons opening))
  /-- The tokens of a clause that is read are a slice of the tokens of the text. -/
  exists_isSlice : ∀ (opening : Terminal) ts clause,
    opening :: ts <:+ Terminal.ofTokens (ofText path text).tokens → opensClause opening = true →
      ArgumentClause.read 1 ts = some clause →
        ∃ first last, IsSlice (ofText path text).tokens opening.token clause first last

/-- **Every text is read and parsed in bounds.** -/
theorem TokenStream.staysInBounds (path text : String) : StaysInBounds path text where
  liesIn front back h recognizer hmem lexeme hfound := by
    have hbegins := Lexeme.sound_of_mem_singleRecognizers hmem _ _ hfound
    rw [chars_eq_drop h] at hbegins
    exact hbegins.liesIn
  liesIn_next front back h c cs hcs := by
    have hbegins := Lexeme.begins_next c cs
    rw [← hcs, chars_eq_drop h] at hbegins
    exact ⟨by rw [Lexeme.firstOf_singleRecognizers]; rfl, hbegins.liesIn⟩
  checkedRead_string cs _ := StringBody.checkedRead_eq StringMode.countsOpen_plain cs
  checkedComment cs _ := by
    rw [DeclFront.checkedComment, checkedComment_eq Nat.one_ne_zero]
    rfl
  checkedRead_clause opening ts _ hopens :=
    ArgumentClause.checkedRead_opening (Bool.and_eq_true_iff.1 hopens).2 ts
  exists_isSlice _ _ _ hsuffix _ hread := Grammar.exists_isSlice hsuffix hread

end DeclFront
