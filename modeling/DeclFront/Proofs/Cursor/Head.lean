import DeclFront.Proofs.Cursor.Walk
import DeclFront.Proofs.Grammar.Parentheses
import DeclFront.Proofs.Grammar.Prediction

/-!
# Proofs/Cursor/Head — names, attributes and modifiers, read at a cursor

The rules of the grammar as operations on a cursor.  Each is followed by the lemma that it reads
what the rule makes of the terminals behind the token taken last.

Two of them look at the indices: a clause of arguments opens where the cursor is adjacent to the
token taken last, which is a name and so is there (`previous_ne_none_of_name`), and the clause is
written out by the tokens between two indices (`reads_arguments`).
-/

namespace DeclFront.Cursor

open Walk

variable {c : Cursor} {t : Token} {α : Type}

/-! ## Tokens and names -/

/-- One token of a kind. -/
def token (wanted : Expectation) (accepts : TokenKind → Bool) (c : Cursor) : Walk c Token :=
  ifNext c accepts (fun t _ => done c.next t) (unexpected c wanted)

/-- A token of a kind is read at the cursor as the rule reads it; so it is for each operation
below. -/
theorem reads_token (hc : c.IsRegular) (wanted : Expectation) (accepts : TokenKind → Bool) :
    (token wanted accepts c).Reads
      (Grammar.token wanted (fun t => accepts t.token.kind) c.terminals) := by
  refine Reads.ifNext hc (Grammar.token wanted fun t => accepts t.token.kind) ?_ fun hother => ?_
  · intro t _ _ ht
    rw [Grammar.token, if_pos ht]
    exact .done _ _
  · refine (Reads.unexpected hc wanted).of_head? rfl fun t ht ts => ?_
    rw [Grammar.token, if_neg (by simpa using hother t ht)]

/-- One token of a kind, if it stands at the cursor. -/
def tokenIf (accepts : TokenKind → Bool) (c : Cursor) : Walk c (Option Token) :=
  ifNext c accepts (fun t _ => done c.next (some t)) (done c none)

/-- The first terminal, if its token is of a kind. -/
def firstIf (accepts : TokenKind → Bool) : List Terminal → Reading (Option Token)
  | [] => .done none []
  | t :: ts => if accepts t.token.kind then .done (some t.token) ts else .done none (t :: ts)

theorem reads_tokenIf (hc : c.IsRegular) (accepts : TokenKind → Bool) :
    (tokenIf accepts c).Reads (firstIf accepts c.terminals) := by
  refine Reads.ifNext hc (firstIf accepts) ?_ fun hother => ?_
  · intro t _ _ ht
    rw [firstIf, if_pos ht]
    exact .done _ _
  · refine (Reads.done c none).of_head? rfl fun t ht ts => ?_
    rw [firstIf, if_neg (by simpa using hother t ht)]

/-- The name that a token gives. -/
def nameOf (t : Token) : Option Name := t.kind.name?.map fun text => ⟨text, t.range⟩

/-- One name. -/
def name (wanted : Expectation) (c : Cursor) : Walk c Name :=
  onNext c nameOf (fun n _ => done c.next n) (unexpected c wanted)

theorem reads_name (hc : c.IsRegular) (wanted : Expectation) :
    (name wanted c).Reads (Grammar.name wanted c.terminals) := by
  refine Reads.onNext hc (Grammar.name wanted) ?_ fun hother => ?_
  · intro t n _ _ hn
    have hname : t.name? = some n := hn
    rw [Grammar.name, hname]
    exact .done _ _
  · refine (Reads.unexpected hc wanted).of_head? rfl fun t ht ts => ?_
    have hname : t.name? = none := hother t ht
    rw [Grammar.name, hname]

/-- As many names as there are separators, each name after one. -/
def furtherNames (separator : Punctuator) (wanted : Expectation) (c : Cursor) :
    Walk c (List Name) :=
  ifNext c (·.isPunctuator separator)
    (fun _ _ => (name wanted c.next).andThen fun n d _ =>
      (furtherNames separator wanted d).map (n :: ·))
    (done c [])
termination_by c.left

/-- The tokens left are the measure, each separator taking one. -/
theorem reads_furtherNames (hc : c.IsRegular) (separator : Punctuator) (wanted : Expectation) :
    (furtherNames separator wanted c).Reads
      (Grammar.furtherNames separator wanted c.terminals) := by
  induction c, hc using regular_induction with
  | step c hc ih =>
    rw [furtherNames]
    refine Reads.ifNext hc (Grammar.furtherNames separator wanted) ?_ fun hother => ?_
    · intro t hlt _ ht
      have hnext := isRegular_next c
      rw [Grammar.furtherNames_of_separator ht]
      refine (reads_name hnext wanted).andThen fun n _ => ?_
      have hleft := Nat.lt_of_le_of_lt (name wanted c.next).advances.left_le hlt
      exact (ih _ ((name wanted c.next).isRegular hnext) hleft).map (n :: ·)
    · refine (Reads.done c []).of_head? (by rw [Grammar.furtherNames]) fun t ht ts => ?_
      have hother' : t.isPunctuator separator = false := hother t ht
      rw [Grammar.furtherNames.eq_def]
      simp only [hother', Bool.false_eq_true, if_false]

/-- Names with separators between them. -/
def names (separator : Punctuator) (wantedFirst wantedNext : Expectation) (c : Cursor) :
    Walk c Grammar.Names :=
  (name wantedFirst c).andThen fun first d _ =>
    (furtherNames separator wantedNext d).map (⟨first, ·⟩)

theorem reads_names (hc : c.IsRegular) (separator : Punctuator)
    (wantedFirst wantedNext : Expectation) :
    (names separator wantedFirst wantedNext c).Reads
      (Grammar.names separator wantedFirst wantedNext c.terminals) :=
  (reads_name hc wantedFirst).andThen fun _ _ =>
    (reads_furtherNames ((name wantedFirst c).isRegular hc) separator wantedNext).map _

/-! ## Attributes -/

/-- Takes tokens up to the parenthesis that balances those open. -/
def closeArguments (opening : Token) (depth : Nat) (c : Cursor) : Walk c Unit :=
  onNext c some
    (fun t _ =>
      if t.kind.isPunctuator .leftParen then closeArguments opening (depth + 1) c.next
      else if t.kind.isPunctuator .rightParen then
        if depth - 1 = 0 then done c.next () else closeArguments opening (depth - 1) c.next
      else closeArguments opening depth c.next)
    (failed c (.unclosedArguments opening))
termination_by c.left

/-- The tokens from the cursor to an index. -/
def slice (c : Cursor) (last : Nat) : List Token :=
  (c.stream.tokens.drop c.position).take (last + 1 - c.position)

/-- The arguments of an attribute as they are written, with their range, if a parenthesis is
adjacent to what was taken last. -/
def arguments (c : Cursor) : Walk c (Option (String × Range)) :=
  match c.peek with
  | none => done c none
  | some opening =>
    if c.isAdjacent && opening.kind.isPunctuator .leftParen then
      (closeArguments opening 0 c).andThen fun _ d _ =>
        let close := d.previous.getD c.position
        let last := (c.stream.tokens[close]?).getD opening
        done d (some (String.join ((c.slice close).map Token.spelling),
          opening.range.through last.range))
    else done c none

/-- What is left when a clause is looked for. -/
def closing (opening : Token) : Option Grammar.ArgumentClause → Reading Unit
  | some clause => .done () clause.rest
  | none => .failed (.unclosedArguments opening) []

/-- A terminal more in a clause leaves the same behind it. -/
theorem closing_map_cons (opening : Token) (t : Terminal) (found : Option Grammar.ArgumentClause) :
    closing opening (found.map (.cons t)) = closing opening found := by
  cases found <;> rfl

/-- **Counting parentheses at the cursor finds the end of the clause** that the rule finds. -/
theorem reads_closeArguments (hc : c.IsRegular) (opening : Token) (depth : Nat) :
    (closeArguments opening depth c).Reads
      (closing opening (Grammar.ArgumentClause.read depth c.terminals)) := by
  induction c, hc using regular_induction generalizing depth with
  | step c hc ih =>
    let spec (ts : List Terminal) : Reading Unit :=
      closing opening (Grammar.ArgumentClause.read depth ts)
    rw [closeArguments]
    refine Reads.onNext hc spec ?_ fun hother => ?_
    · intro t u hlt _ hu
      obtain rfl := Option.some.inj hu
      have further (depth : Nat) := ih _ (isRegular_next c) hlt depth
      have hopen : t.token.kind.isPunctuator .leftParen = t.isPunctuator .leftParen := rfl
      have hclose : t.token.kind.isPunctuator .rightParen = t.isPunctuator .rightParen := rfl
      simp only [spec, Grammar.ArgumentClause.read, hopen, hclose]
      split
      · rw [closing_map_cons]
        exact further _
      · split
        · split
          · exact .done _ _
          · rw [closing_map_cons]
            exact further _
        · rw [closing_map_cons]
          exact further _
    · refine (Reads.failed c (.unclosedArguments opening)).of_head? rfl fun t ht ts => ?_
      cases hother t ht

/-- The tokens up to the one taken last are those of the terminals passed, when nothing stands
between the cursor and the token in front. -/
theorem slice_eq {d : Cursor} {taken : List Token} {passed : List Terminal} {last : Nat}
    (hc : c.IsRegular) (hleading : c.leading = []) (h : c.Advances taken d)
    (hlast : d.previous = some last) (hpassed : c.terminals = passed ++ d.terminals) :
    c.slice last = Terminal.tokens passed := by
  -- With no trivia in front of it, the cursor is where the tokens of the passed terminals begin.
  obtain ⟨passed', hterminals, -, hdrop, hbehind⟩ := h.exists_passed hc
  obtain rfl : passed = passed' := List.append_cancel_right (hpassed.symm.trans hterminals)
  have hposition : c.position = c.behind := by rw [hc.position_eq, hleading]; rfl
  have hlength : last + 1 - c.behind = (Terminal.tokens passed).length := by
    have hbehind' : d.behind = last + 1 := by rw [behind, hlast, Option.elim_some]
    omega
  rw [slice, hposition, hdrop, hlength, List.take_left]

/-- A clause of arguments as it is written, with its range, where one opens. -/
def argumentClause : List Terminal → Reading (Option (String × Range))
  | [] => .done none []
  | t :: ts =>
    if Grammar.opensClause t then
      match Grammar.ArgumentClause.read 1 ts with
      | some clause =>
        .done (some (clause.text t.token, t.range.through clause.closing.range)) clause.rest
      | none => .failed (.unclosedArguments t.token) []
    else .done none (t :: ts)

/-- Where a clause has been closed, it is written out by the tokens up to the one taken last. -/
theorem exists_close {clause : Grammar.ArgumentClause} {walk : Walk c α} (hc : c.IsRegular)
    (hpeek : c.peek = some t) (hleading : c.leading = [])
    (hread : Grammar.ArgumentClause.read 1 c.next.terminals = some clause)
    (hrest : walk.cursor.terminals = clause.rest) :
    ∃ last, walk.cursor.previous = some last ∧
      c.stream.tokens[last]? = some clause.closing.token ∧
        String.join ((c.slice last).map Token.spelling) = clause.text t := by
  obtain ⟨-, -, hclause⟩ := Grammar.ArgumentClause.closesAll_of_read hread
  have hpassed : c.terminals =
      ((⟨c.leading, t⟩ :: clause.inner) ++ [clause.closing]) ++ walk.cursor.terminals := by
    rw [hc.terminals_eq_cons hpeek, hclause, hrest]
    simp
  obtain ⟨passed, hterminals, htaken, -⟩ := walk.advances.exists_passed hc
  obtain rfl := List.append_cancel_right (hpassed.symm.trans hterminals)
  have hlast : walk.taken.getLast? = some clause.closing.token := by
    rw [← htaken, List.map_append]
    exact List.getLast?_concat
  obtain ⟨last, hprevious, hget⟩ := walk.advances.exists_previous (by rintro h; simp [h] at hlast)
  refine ⟨last, hprevious, hget.trans hlast, ?_⟩
  rw [slice_eq hc hleading walk.advances hprevious hpassed, Terminal.join_tokens]
  apply String.toList_injective
  simp [Grammar.ArgumentClause.text, Terminal.spelling, String.toList_join, hleading]

/-- **The arguments are the tokens between two indices.** -/
theorem reads_arguments (hc : c.IsRegular) (hprevious : c.previous ≠ none) :
    (arguments c).Reads (argumentClause c.terminals) := by
  rw [arguments]
  cases hpeek : c.peek with
  | none =>
    have hread := Reads.done c (none : Option (String × Range))
    rw [hc.terminals_eq_nil hpeek] at hread ⊢
    exact hread
  | some t =>
    have hterminals := hc.terminals_eq_cons hpeek
    have hopens : (c.isAdjacent && t.kind.isPunctuator .leftParen) =
        Grammar.opensClause ⟨c.leading, t⟩ := by
      rw [hc.isAdjacent_eq hprevious]
      rfl
    simp only [hopens]
    rw [hterminals, argumentClause]
    split
    · rename_i hopen
      obtain ⟨hadjacent, hparen⟩ := Bool.and_eq_true_iff.1 hopen
      -- The loop starts in front of the opening parenthesis, so its depth is one behind it.
      have hclose := reads_closeArguments hc t 0
      rw [hterminals, Grammar.ArgumentClause.read, if_pos hparen, closing_map_cons] at hclose
      cases hread : Grammar.ArgumentClause.read 1 c.next.terminals with
      | none =>
        rw [hread] at hclose
        rw [andThen_of_error hclose.result_eq]
        exact ⟨rfl, hclose.terminals_eq⟩
      | some clause =>
        rw [hread] at hclose
        obtain ⟨last, hprevious, hlast, htext⟩ :=
          exists_close hc hpeek (List.isEmpty_iff.1 hadjacent) hread hclose.terminals_eq
        rw [andThen_of_ok hclose.result_eq]
        refine ⟨?_, hclose.terminals_eq⟩
        simp only [hprevious, Option.getD_some, hlast, htext]
        rfl
    · have hstay := Reads.done c (none : Option (String × Range))
      rwa [hterminals] at hstay

/-- At the start of a stream no arguments open. -/
theorem reads_arguments_of_first (hprevious : c.previous = none) :
    (arguments c).Reads (.done none c.terminals) := by
  have hadjacent : c.isAdjacent = false := by rw [isAdjacent, hprevious, Option.any_none]
  rw [arguments, hadjacent]
  cases c.peek with
  | none => exact .done c none
  | some t => exact .done c none

/-- The attribute that a name and the arguments behind it make. -/
def attributeOf (sign : Token) (n : Name) (arguments : Option (String × Range)) : Attribute :=
  ⟨n.text, arguments.map (·.1), sign.range.through ((arguments.map (·.2)).getD n.range)⟩

/-- Behind its name, an attribute is its clause of arguments and nothing else. -/
theorem behindName_eq_map (sign : Token) (n : Name) (ts : List Terminal) :
    Grammar.behindName sign n ts = (argumentClause ts).map (attributeOf sign n) := by
  rcases ts with _ | ⟨t, ts⟩
  · rfl
  rw [argumentClause]
  cases ht : Grammar.opensClause t with
  | false =>
    rw [Grammar.behindName_of_other ht]
    rfl
  | true =>
    cases hread : Grammar.ArgumentClause.read 1 ts with
    | none =>
      rw [Grammar.behindName_of_unclosed ht hread]
      rfl
    | some clause =>
      rw [Grammar.behindName_of_clause ht hread]
      rfl

/-- An attribute whose `@` has been read. -/
def attributeAfterSign (sign : Token) (c : Cursor) : Walk c Attribute :=
  (name .attributeName c).andThen fun n d _ => (arguments d).map (attributeOf sign n)

/-- Behind a name there is a token taken last. -/
theorem previous_ne_none_of_name {wanted : Expectation} {n : Name}
    (h : (name wanted c).result = .ok n) : (name wanted c).cursor.previous ≠ none := by
  rw [name] at h ⊢
  cases hfound : c.peek.bind nameOf with
  | none =>
    rw [onNext_of_other hfound] at h
    cases h
  | some n =>
    obtain ⟨t, hpeek, hn⟩ := Option.bind_eq_some_iff.1 hfound
    rw [onNext_of_found hpeek hn]
    exact Option.some_ne_none _

theorem reads_attributeAfterSign (hc : c.IsRegular) (sign : Token) :
    (attributeAfterSign sign c).Reads (Grammar.attributeAfterSign sign c.terminals) := by
  rw [Grammar.attributeAfterSign_eq]
  refine (reads_name hc _).andThen fun n hn => ?_
  rw [behindName_eq_map]
  exact (reads_arguments ((name _ c).isRegular hc) (previous_ne_none_of_name hn)).map _

/-- As many attributes as there are. -/
def attributes (c : Cursor) : Walk c (List Attribute) :=
  ifNext c (·.isPunctuator .atSign)
    (fun sign _ => (attributeAfterSign sign c.next).andThen fun a d _ =>
      (attributes d).map (a :: ·))
    (done c [])
termination_by c.left

/-- Attributes are read one by one, and what has been taken of one that fails stays taken. -/
theorem reads_attributes (hc : c.IsRegular) :
    (attributes c).Reads (Grammar.attributes c.terminals) := by
  induction c, hc using regular_induction with
  | step c hc ih =>
    rw [attributes]
    refine Reads.ifNext hc Grammar.attributes ?_ fun hother => ?_
    · intro t hlt _ ht
      have hnext := isRegular_next c
      rw [Grammar.attributes_of_sign ht, ← Grammar.attributeAfterSign_eq]
      refine (reads_attributeAfterSign hnext t.token).andThen fun a _ => ?_
      have hleft := Nat.lt_of_le_of_lt (attributeAfterSign t.token c.next).advances.left_le hlt
      exact (ih _ ((attributeAfterSign t.token c.next).isRegular hnext) hleft).map (a :: ·)
    · refine (Reads.done c []).of_head? (by rw [Grammar.attributes]) fun t ht ts => ?_
      exact Grammar.attributes_of_other (hother t ht)

/-! ## The access modifier -/

/-- A parenthesis behind an access keyword has to open `(set)`. -/
def behindLevel (level : AccessLevel) (r : Range) (c : Cursor) :
    Walk c (Option Grammar.AccessModifier) :=
  ifNext c (·.isPunctuator .leftParen)
    (fun _ _ => (token (.setKeyword level) (·.isKeyword "set") c.next).andThen fun _ d _ =>
      (token .closeAfterSet (·.isPunctuator .rightParen) d).map fun close =>
        some ⟨level, true, r.through close.range⟩)
    (done c (some ⟨level, false, r⟩))

theorem reads_behindLevel (hc : c.IsRegular) (level : AccessLevel) (r : Range) :
    (behindLevel level r c).Reads (Grammar.behindLevel level r c.terminals) := by
  refine Reads.ifNext hc (Grammar.behindLevel level r) ?_ fun hother => ?_
  · intro t _ _ ht
    have hparen : t.isPunctuator .leftParen = true := ht
    have hset := reads_token (isRegular_next c) (.setKeyword level) (·.isKeyword "set")
    rw [Grammar.behindLevel, if_pos hparen]
    exact hset.andThen fun _ _ =>
      (reads_token ((token _ _ c.next).isRegular (isRegular_next c)) .closeAfterSet
        (·.isPunctuator .rightParen)).map _
  · refine (Reads.done c _).of_head? rfl fun t ht ts => ?_
    have hother' : t.isPunctuator .leftParen = false := hother t ht
    rw [Grammar.behindLevel, if_neg (by simp [hother'])]

/-- The access modifier, if there is one. -/
def accessModifier (c : Cursor) : Walk c (Option Grammar.AccessModifier) :=
  onNext c (fun t => t.kind.accessLevel?.map (t.range, ·))
    (fun (r, level) _ => behindLevel level r c.next) (done c none)

/-- An access keyword is taken before its parenthesis is looked at. -/
theorem reads_accessModifier (hc : c.IsRegular) :
    (accessModifier c).Reads (Grammar.accessModifier c.terminals) := by
  refine Reads.onNext hc Grammar.accessModifier ?_ fun hother => ?_
  · intro t _ _ _ hfound
    obtain ⟨level, hlevel, rfl⟩ := Option.map_eq_some_iff.1 hfound
    have hbehind : Grammar.accessModifier (t :: c.next.terminals) =
        Grammar.behindLevel level t.range c.next.terminals := by
      have hlevel' : t.accessLevel? = some level := hlevel
      rw [Grammar.accessModifier, hlevel']
      rcases c.next.terminals with _ | ⟨u, us⟩ <;> rfl
    rw [hbehind]
    exact reads_behindLevel (isRegular_next c) _ _
  · refine (Reads.done c none).of_head? rfl fun t ht ts => ?_
    have hnone : t.accessLevel? = none := Option.map_eq_none_iff.1 (hother t ht)
    rw [Grammar.accessModifier, hnone]

/-- The attributes and the access modifier of a declaration. -/
def declarationHead (c : Cursor) : Walk c Grammar.DeclarationHead :=
  (attributes c).andThen fun attributes d _ => (accessModifier d).map (⟨attributes, ·⟩)

theorem reads_declarationHead (hc : c.IsRegular) :
    (declarationHead c).Reads (Grammar.declarationHead c.terminals) :=
  (reads_attributes hc).andThen fun _ _ =>
    (reads_accessModifier ((attributes c).isRegular hc)).map _

end DeclFront.Cursor
