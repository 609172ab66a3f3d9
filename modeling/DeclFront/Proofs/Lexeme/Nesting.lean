import DeclFront.Proofs.Lexeme.FirstChar
import DeclFront.Proofs.Tiling

/-!
# Proofs/Lexeme/Nesting — block comments nest

    closes   /* ─▸ closes what it opens, then goes on
             */ ─▸ done
             c  ─▸ goes on

`Closes` says by recursion where the mark stands that closes a block comment; the reader of comments
counts open marks instead.  With so many marks open the count reads up to the mark that closes the
innermost, and goes on with one mark less (`blockComment_of_closes`); where nothing closes it the
count reads to the end of the text, however many are open (`blockComment_of_not_closes`).  So the
comment that is read is the one that the recursion finds, and the count is never taken below zero
(`isBlockComment_of_ofText`).
-/

namespace DeclFront

/-- The text begins with an opening or a closing mark. -/
def startsMark : List Char → Bool
  | '/' :: '*' :: _ => true
  | '*' :: '/' :: _ => true
  | _ => false

/-- A mark is a slash and a star, in either order. -/
theorem exists_of_startsMark {text : List Char} (h : startsMark text = true) :
    (∃ inner, text = '/' :: '*' :: inner) ∨ ∃ rest, text = '*' :: '/' :: rest := by
  unfold startsMark at h
  split at h
  · exact .inl ⟨_, rfl⟩
  · exact .inr ⟨_, rfl⟩
  · cases h

/-- Read from behind an opening mark, the text has the mark that closes it, and `rest` behind
that. -/
inductive Closes : (text rest : List Char) → Prop where
  | mark (rest : List Char) : Closes ('*' :: '/' :: rest) rest
  /-- A mark that opens inside is closed first. -/
  | nested {inner middle rest : List Char} (hinner : Closes inner middle)
      (hmiddle : Closes middle rest) : Closes ('/' :: '*' :: inner) rest
  | other {c : Char} {cs rest : List Char} (hc : startsMark (c :: cs) = false)
      (hcs : Closes cs rest) : Closes (c :: cs) rest

/-- A comment that closes leaves less text. -/
theorem Closes.length_lt {text rest : List Char} (h : Closes text rest) :
    rest.length < text.length := by
  induction h with
  | mark rest => simp only [List.length_cons]; omega
  | nested _ _ ihinner ihmiddle => simp only [List.length_cons]; omega
  | other _ _ ih => exact Nat.lt_succ_of_lt ih

/-! ## The count and the recursion -/

section Count

variable {depth : Nat} {c : Char} {cs text rest : List Char}

/-- What is read behind a closing mark with so many marks still open. -/
def commentBehind : (depth : Nat) → List Char → List Char × List Char
  | 0, rest => ([], rest)
  | depth + 1, rest => blockComment (depth + 1) rest

/-- An opening mark inside a comment makes it one deeper. -/
theorem blockComment_opening (depth : Nat) (cs : List Char) :
    blockComment depth ('/' :: '*' :: cs) =
      ('/' :: '*' :: (blockComment (depth + 1) cs).1, (blockComment (depth + 1) cs).2) := by
  rw [blockComment]

/-- A closing mark takes one off the depth, and ends the comment at the last. -/
theorem blockComment_closing (depth : Nat) (cs : List Char) :
    blockComment (depth + 1) ('*' :: '/' :: cs) =
      ('*' :: '/' :: (commentBehind depth cs).1, (commentBehind depth cs).2) := by
  rcases depth with _ | depth <;> rfl

/-- Any other character is passed over. -/
theorem blockComment_other (h : startsMark (c :: cs) = false) (depth : Nat) :
    blockComment depth (c :: cs) =
      (c :: (blockComment depth cs).1, (blockComment depth cs).2) := by
  refine blockComment.eq_3 depth c cs ?_ ?_ <;>
    · rintro ds rfl rfl
      cases h

/-- **Up to the mark that closes the innermost comment** the count reads all, and goes on with one
mark less. -/
theorem blockComment_of_closes (h : Closes text rest) :
    ∃ inner, text = inner ++ rest ∧ ∀ depth, blockComment (depth + 1) text =
      (inner ++ (commentBehind depth rest).1, (commentBehind depth rest).2) := by
  induction h with
  | mark rest => exact ⟨['*', '/'], rfl, fun depth => blockComment_closing depth rest⟩
  | @nested text middle rest _ _ ihinner ihmiddle =>
    obtain ⟨inner, rfl, hinner⟩ := ihinner
    obtain ⟨outer, rfl, houter⟩ := ihmiddle
    refine ⟨'/' :: '*' :: (inner ++ outer), by simp, fun depth => ?_⟩
    rw [blockComment_opening, hinner, commentBehind, houter]
    simp
  | @other c cs rest hc _ ih =>
    obtain ⟨inner, rfl, hinner⟩ := ih
    refine ⟨c :: inner, rfl, fun depth => ?_⟩
    rw [blockComment_other hc, hinner]
    rfl

/-- **Where nothing closes the innermost comment** the count reads to the end of the text. -/
theorem blockComment_of_not_closes (h : ∀ rest, ¬ Closes text rest) (depth : Nat) :
    blockComment (depth + 1) text = (text, []) := by
  induction hn : text.length using Nat.strongRecOn generalizing text depth with
  | _ n ih =>
    subst hn
    rcases text with _ | ⟨c, cs⟩
    · rfl
    cases hmark : startsMark (c :: cs) with
    | false =>
      have hcs : ∀ rest, ¬ Closes cs rest := fun rest hrest => h rest (.other hmark hrest)
      rw [blockComment_other hmark, ih _ (Nat.lt_succ_self _) hcs depth rfl]
    | true =>
      obtain ⟨inner, htext⟩ | ⟨rest, htext⟩ := exists_of_startsMark hmark
      · rw [htext] at h ih ⊢
        by_cases hinner : ∃ middle, Closes inner middle
        · -- What opens here is closed, so it is behind that that nothing closes.
          obtain ⟨middle, hinner⟩ := hinner
          have hmiddle : ∀ rest, ¬ Closes middle rest := fun rest hrest =>
            h rest (.nested hinner hrest)
          have hlength := hinner.length_lt
          obtain ⟨front, rfl, hfront⟩ := blockComment_of_closes hinner
          rw [blockComment_opening, hfront, commentBehind, ih _ ?_ hmiddle depth rfl]
          simp only [List.length_cons]
          omega
        · rw [blockComment_opening, ih _ ?_ (not_exists.1 hinner) (depth + 1) rfl]
          simp only [List.length_cons]
          omega
      · exact absurd (htext ▸ .mark rest) (h rest)

/-! ## The count does not go below zero -/

/-- The count of open marks from the front of a comment on, which gives nothing when a mark is to be
taken off and none is open. -/
def checkedComment : (depth : Nat) → List Char → Option (List Char × List Char)
  | depth, '/' :: '*' :: cs =>
    (checkedComment (depth + 1) cs).map fun (comment, rest) => ('/' :: '*' :: comment, rest)
  | depth, '*' :: '/' :: cs =>
    if depth = 0 then none
    else if depth - 1 = 0 then some (['*', '/'], cs)
    else
      (checkedComment (depth - 1) cs).map fun (comment, rest) => ('*' :: '/' :: comment, rest)
  | depth, c :: cs =>
    (checkedComment depth cs).map fun (comment, rest) => (c :: comment, rest)
  | _, [] => some ([], [])

/-- **A mark is open whenever one is taken off.** -/
theorem checkedComment_eq (hdepth : depth ≠ 0) (text : List Char) :
    checkedComment depth text = some (blockComment depth text) := by
  fun_induction blockComment depth text with
  | case1 depth cs comment rest hcomment ih =>
    rw [checkedComment, ih depth.succ_ne_zero, hcomment]
    rfl
  | case2 depth cs hlast => rw [checkedComment, if_neg hdepth, if_pos hlast]
  | case3 depth cs hlast comment rest hcomment ih =>
    rw [checkedComment, if_neg hdepth, if_neg hlast, ih hlast, hcomment]
    rfl
  | case4 depth c cs hopen hclose comment rest hcomment ih =>
    rw [checkedComment.eq_3 depth c cs hopen hclose, ih hdepth, hcomment]
    rfl
  | case5 => rfl

end Count

namespace TokenStream

variable {path text : String} {front back : List Token} {t : Token} {cs : List Char}

/-- **A block comment is what the recursion says**, at any place of any text: the comment up to the
mark that closes it, with the text behind it still to read, and all of the text where nothing does;
and counting marks finds it without going below zero. -/
theorem isBlockComment_of_ofText (h : (ofText path text).tokens = front ++ t :: back)
    (hcs : Token.chars (t :: back) = '/' :: '*' :: cs) :
    (∀ rest, Closes cs rest → ∃ inner, cs = inner ++ rest ∧
        t.kind = .comment (String.ofList ('/' :: '*' :: inner)) ∧ Token.chars back = rest) ∧
      ((∀ rest, ¬ Closes cs rest) →
        t.kind = .comment (String.ofList ('/' :: '*' :: cs)) ∧ back = []) ∧
      checkedComment 0 ('/' :: '*' :: cs) = some (t.spelling.toList, Token.chars back) := by
  have hnext : Lexeme.next '/' ('*' :: cs) = ⟨t.kind, t.spelling.toList, Token.chars back⟩ :=
    Token.next_of_ofText h hcs
  rw [Lexeme.next_slash rfl] at hnext
  obtain ⟨hkind, hchars, hback⟩ := Lexeme.mk.inj hnext
  refine ⟨fun rest hrest => ?_, fun hopen => ?_, ?_⟩
  · obtain ⟨inner, hinner, hcount⟩ := blockComment_of_closes hrest
    rw [hcount 0, commentBehind] at hkind hback
    rw [List.append_nil] at hkind
    exact ⟨inner, hinner, hkind.symm, hback.symm⟩
  · have hcount := blockComment_of_not_closes hopen 0
    rw [hcount] at hkind hback
    have hrest := Token.ofText_append (h.trans (List.append_cons front t back))
    rw [← hback, Token.ofText_nil] at hrest
    exact ⟨hkind.symm, hrest⟩
  · rw [checkedComment, checkedComment_eq Nat.one_ne_zero, ← hchars, ← hback]
    rfl

/-- A character belongs to one mark at most: in `/*/` the star opens, and so it does not close. -/
theorem isBlockComment_overlappingMarks :
    let front : Token := ⟨.identifier "a", ⟨⟨⟨1, 1⟩, "p"⟩, ⟨⟨1, 2⟩, "p"⟩⟩⟩
    let nested : Token := ⟨.comment "/*/*/ */*/", ⟨⟨⟨1, 2⟩, "p"⟩, ⟨⟨1, 12⟩, "p"⟩⟩⟩
    let behind : Token := ⟨.identifier "b", ⟨⟨⟨1, 12⟩, "p"⟩, ⟨⟨1, 13⟩, "p"⟩⟩⟩
    let unclosed : Token := ⟨.comment "/*/", ⟨⟨⟨1, 1⟩, "p"⟩, ⟨⟨1, 4⟩, "p"⟩⟩⟩
    (ofText "p" "a/*/*/ */*/b").tokens = [front] ++ nested :: [behind] ∧
      Closes "/*/ */*/b".toList ['b'] ∧
      (∃ inner, "/*/ */*/b".toList = inner ++ ['b'] ∧
        nested.kind = .comment (String.ofList ('/' :: '*' :: inner)) ∧
          Token.chars [behind] = ['b']) ∧
      (ofText "p" "/*/").tokens = [] ++ unclosed :: [] ∧ (∀ rest, ¬ Closes ['/'] rest) ∧
      unclosed.kind = .comment (String.ofList ['/', '*', '/']) := by
  intro front nested behind unclosed
  have hnested : (ofText "p" "a/*/*/ */*/b").tokens = [front] ++ nested :: [behind] := by
    decide +kernel
  have hcloses : Closes "/*/ */*/b".toList ['b'] :=
    .nested (.other rfl (.other rfl (.mark ['*', '/', 'b']))) (.mark ['b'])
  have hunclosed : (ofText "p" "/*/").tokens = [] ++ unclosed :: [] := by decide +kernel
  have hbehind : Token.chars [nested, behind] = '/' :: '*' :: "/*/ */*/b".toList := by
    decide +kernel
  have hchars : Token.chars [unclosed] = ['/', '*', '/'] := by decide +kernel
  have hopen : ∀ rest, ¬ Closes ['/'] rest := by
    rintro rest (_ | _ | ⟨-, ⟨⟩⟩)
  exact ⟨hnested, hcloses, (isBlockComment_of_ofText hnested hbehind).1 _ hcloses, hunclosed, hopen,
    ((isBlockComment_of_ofText hunclosed hchars).2.1 hopen).1⟩

end TokenStream

end DeclFront
