import DeclFront.Proofs.Lexeme.FirstChar
import DeclFront.Proofs.Tiling

/-!
# Proofs/Lexeme/Segments — string literals are made of segments

    literal  ::= '"' segment* '"'
    segment  ::= character | '\' character | '\' '(' nested ')'

`StringSegment` has a constructor for each sort of segment, with what it asks of its characters; the
reader of strings has a mode instead, which tells at each character what stands in front of it.
Inside an interpolation the mode counts parentheses, so it leaves at the one that balances the first
(`read_interpolation`) and nowhere else (`exists_nest_of_read`).  From a segment in plain mode the
reader comes back to plain mode (`read_segment`), and all that it reads is segments
(`exists_segments_of_read`).
-/

namespace DeclFront

/-! ## Nested parentheses -/

/-- With so many parentheses open in front, no more are ever closed than were opened, and in the end
they all are. -/
structure ParenthesesNest (depth : Nat) (cs : List Char) : Prop where
  count_le : ∀ front, front <+: cs → front.count ')' ≤ front.count '(' + depth
  count_eq : cs.count ')' = cs.count '(' + depth

namespace ParenthesesNest

variable {depth : Nat} {c : Char} {cs : List Char}

/-- Nothing closes all that is open only where nothing is. -/
theorem nil_iff : ParenthesesNest depth [] ↔ depth = 0 := by
  constructor
  · intro h
    simpa using h.count_eq.symm
  · rintro rfl
    refine ⟨fun front hfront => ?_, rfl⟩
    rw [List.prefix_nil.1 hfront]
    exact Nat.le_refl 0

/-- Nesting, with the first character told apart. -/
theorem cons_iff :
    ParenthesesNest depth (c :: cs) ↔
      (∀ front, front <+: cs → (c :: front).count ')' ≤ (c :: front).count '(' + depth) ∧
        (c :: cs).count ')' = (c :: cs).count '(' + depth := by
  constructor
  · exact fun h => ⟨fun front hfront => h.count_le _ (List.cons_prefix_cons.2 ⟨rfl, hfront⟩),
      h.count_eq⟩
  · rintro ⟨hle, heq⟩
    refine ⟨fun front hfront => ?_, heq⟩
    rcases List.prefix_cons_iff.1 hfront with rfl | ⟨tail, rfl, htail⟩
    · exact Nat.zero_le _
    · exact hle tail htail

/-- An opening parenthesis is one more to close. -/
theorem opening_iff : ParenthesesNest depth ('(' :: cs) ↔ ParenthesesNest (depth + 1) cs := by
  have hcount (ds : List Char) : ('(' :: ds).count ')' = ds.count ')' ∧
      ('(' :: ds).count '(' + depth = ds.count '(' + (depth + 1) := by
    constructor
    · simp
    · rw [List.count_cons_self]
      omega
  simp only [cons_iff, hcount]
  exact ⟨fun h => ⟨h.1, h.2⟩, fun h => ⟨h.count_le, h.count_eq⟩⟩

/-- A closing parenthesis asks for one that is open. -/
theorem closing_iff :
    ParenthesesNest depth (')' :: cs) ↔ ∃ left, depth = left + 1 ∧ ParenthesesNest left cs := by
  rw [cons_iff]
  simp only [List.count_cons_self, ne_eq, Char.reduceEq, not_false_eq_true, List.count_cons_of_ne]
  constructor
  · rintro ⟨hle, heq⟩
    have hopen := hle [] List.nil_prefix
    obtain ⟨left, rfl⟩ : ∃ left, depth = left + 1 := ⟨depth - 1, by simp at hopen; omega⟩
    exact ⟨left, rfl, fun front hfront => by have := hle front hfront; omega, by omega⟩
  · rintro ⟨left, rfl, h⟩
    exact ⟨fun front hfront => by have := h.count_le front hfront; omega,
      by have := h.count_eq; omega⟩

theorem other_iff (hopen : c ≠ '(') (hclose : c ≠ ')') :
    ParenthesesNest depth (c :: cs) ↔ ParenthesesNest depth cs := by
  simp only [cons_iff, List.count_cons_of_ne hopen, List.count_cons_of_ne hclose]
  exact ⟨fun h => ⟨h.1, h.2⟩, fun h => ⟨h.count_le, h.count_eq⟩⟩

end ParenthesesNest

/-! ## Segments -/

/-- A part of a string literal. -/
inductive StringSegment where
  /-- A character that stands for itself. -/
  | plain (c : Char) (hquote : c ≠ '\"') (hbackslash : c ≠ '\\') (hline : isLineEnd c = false)
  /-- A character behind a backslash. -/
  | escape (c : Char) (hopen : c ≠ '(') (hline : isLineEnd c = false)
  /-- Anything at all between a parenthesis behind a backslash and the one that balances it. -/
  | interpolation (inner : List Char) (hinner : ParenthesesNest 0 inner)

namespace StringSegment

/-- The characters that a segment is written with. -/
def chars : StringSegment → List Char
  | plain c _ _ _ => [c]
  | escape c _ _ => ['\\', c]
  | interpolation inner _ => '\\' :: '(' :: (inner ++ [')'])

theorem chars_ne_nil (segment : StringSegment) : segment.chars ≠ [] := by
  cases segment <;> exact List.cons_ne_nil _ _

/-- The segment is an interpolation. -/
def isInterpolation : StringSegment → Bool
  | interpolation _ _ => true
  | _ => false

/-- The text of segments. -/
def raw (segments : List StringSegment) : List Char := segments.flatMap chars

/-- The text of segments between double quotes. -/
def literal (segments : List StringSegment) : List Char := '\"' :: (raw segments ++ ['\"'])

theorem raw_cons (segment : StringSegment) (segments : List StringSegment) :
    raw (segment :: segments) = segment.chars ++ raw segments := List.flatMap_cons

end StringSegment

/-! ## The reader and the segments -/

namespace StringBody

variable {depth : Nat} {text : List Char} {body : StringBody}

/-- A body with more of the string in front. -/
def prepend (front : List Char) (interpolated : Bool) (body : StringBody) : StringBody :=
  ⟨front ++ body.raw, interpolated || body.interpolated, body.rest⟩

/-- A character that does not close the literal takes the reader to its next mode. -/
theorem read_of_after {mode next : StringMode} {c : Char} (hcloses : mode.closes c = false)
    (hafter : mode.after c = some next) (cs : List Char) :
    read mode (c :: cs) = (read next cs).map (prepend [c] (mode.opens c)) := by
  rw [read, hcloses, hafter]
  rfl

/-- One prefix and then another. -/
theorem map_prepend_map_prepend (front behind : List Char) (i j : Bool)
    (result : Option StringBody) :
    (result.map (prepend behind j)).map (prepend front i) =
      result.map (prepend (front ++ behind) (i || j)) := by
  rw [Option.map_map]
  congr 1
  funext body
  simp [prepend, Bool.or_assoc]

/-- **Inside an interpolation** the reader goes on to the parenthesis that balances the first. -/
theorem read_interpolation {inner : List Char} (h : ParenthesesNest depth inner)
    (rest : List Char) :
    read (.interpolation (depth + 1)) (inner ++ ')' :: rest) =
      (read .plain rest).map (prepend (inner ++ [')']) false) := by
  induction inner generalizing depth with
  | nil =>
    obtain rfl := ParenthesesNest.nil_iff.1 h
    exact read_of_after rfl rfl rest
  | cons c inner ih =>
    have step {next : Nat} (hafter : StringMode.after (.interpolation (depth + 1)) c =
        some (.interpolation (next + 1))) (hinner : ParenthesesNest next inner) :
        read (.interpolation (depth + 1)) (c :: inner ++ ')' :: rest) =
          (read .plain rest).map (prepend (c :: inner ++ [')']) false) := by
      rw [List.cons_append, read_of_after rfl hafter, ih hinner, map_prepend_map_prepend]
      rfl
    by_cases hopen : c = '('
    · subst hopen
      exact step rfl (ParenthesesNest.opening_iff.1 h)
    by_cases hclose : c = ')'
    · subst hclose
      obtain ⟨left, rfl, hinner⟩ := ParenthesesNest.closing_iff.1 h
      exact step rfl hinner
    · exact step (by simp [StringMode.after, hopen, hclose])
        ((ParenthesesNest.other_iff hopen hclose).1 h)

/-- What is read from inside an interpolation leaves it at the parenthesis that balances the
first. -/
theorem exists_nest_of_read (h : read (.interpolation (depth + 1)) text = some body) :
    ∃ inner rest, text = inner ++ ')' :: rest ∧ ParenthesesNest depth inner := by
  induction text generalizing depth body with
  | nil => cases h
  | cons c cs ih =>
    have step {next : Nat} (hafter : StringMode.after (.interpolation (depth + 1)) c =
        some (.interpolation (next + 1)))
        (hcons : ∀ {inner}, ParenthesesNest next inner → ParenthesesNest depth (c :: inner)) :
        ∃ inner rest, c :: cs = inner ++ ')' :: rest ∧ ParenthesesNest depth inner := by
      rw [read_of_after rfl hafter] at h
      obtain ⟨behind, hbehind, -⟩ := Option.map_eq_some_iff.1 h
      obtain ⟨inner, rest, rfl, hinner⟩ := ih hbehind
      exact ⟨c :: inner, rest, rfl, hcons hinner⟩
    by_cases hopen : c = '('
    · subst hopen
      exact step rfl ParenthesesNest.opening_iff.2
    by_cases hclose : c = ')'
    · subst hclose
      rcases depth with _ | left
      · exact ⟨[], cs, rfl, ParenthesesNest.nil_iff.2 rfl⟩
      · exact step rfl fun hinner => ParenthesesNest.closing_iff.2 ⟨left, rfl, hinner⟩
    · exact step (by simp [StringMode.after, hopen, hclose])
        (ParenthesesNest.other_iff hopen hclose).2

/-- **The reader passes over a segment** and is in plain mode again. -/
theorem read_segment (segment : StringSegment) (rest : List Char) :
    read .plain (segment.chars ++ rest) =
      (read .plain rest).map (prepend segment.chars segment.isInterpolation) := by
  cases segment with
  | plain c hquote hbackslash hline =>
    exact read_of_after (by simp [StringMode.closes, hquote])
      (by simp [StringMode.after, hbackslash, hline]) rest
  | escape c hopen hline =>
    have hafter : StringMode.after .escaped c = some .plain := by
      simp [StringMode.after, hopen, hline]
    have hopens : StringMode.opens .escaped c = false := by simp [StringMode.opens, hopen]
    refine (read_of_after rfl rfl (c :: rest)).trans ?_
    rw [read_of_after rfl hafter, map_prepend_map_prepend, hopens]
    rfl
  | interpolation inner hinner =>
    refine (read_of_after rfl rfl ('(' :: (inner ++ [')']) ++ rest)).trans ?_
    refine (congrArg _ (read_of_after rfl rfl ((inner ++ [')']) ++ rest))).trans ?_
    rw [List.append_assoc, List.singleton_append, read_interpolation hinner,
      map_prepend_map_prepend, map_prepend_map_prepend]
    rfl

/-- **Segments are read** up to the quote behind them. -/
theorem read_segments (segments : List StringSegment) (rest : List Char) :
    read .plain (StringSegment.raw segments ++ '\"' :: rest) =
      some ⟨StringSegment.raw segments, segments.any StringSegment.isInterpolation,
        rest⟩ := by
  induction segments with
  | nil => rfl
  | cons segment segments ih =>
    rw [StringSegment.raw_cons, List.append_assoc, read_segment, ih]
    rfl

/-- A line end outside an interpolation breaks the literal off. -/
theorem read_of_isLineEnd {mode : StringMode} {c : Char} (hmode : mode = .plain ∨ mode = .escaped)
    (hc : isLineEnd c = true) (cs : List Char) : read mode (c :: cs) = none := by
  have hquote : c ≠ '\"' := by
    rintro rfl
    cases hc
  rcases hmode with rfl | rfl <;> simp [read, StringMode.closes, StringMode.after, hquote, hc]

/-- Where a string goes on behind a backslash, a segment begins with the backslash. -/
theorem exists_segment_of_read_escaped (h : read .escaped text = some body) :
    ∃ (segment : StringSegment) (rest : List Char), '\\' :: text = segment.chars ++ rest := by
  rcases text with _ | ⟨c, cs⟩
  · cases h
  cases hline : isLineEnd c with
  | true =>
    rw [read_of_isLineEnd (.inr rfl) hline] at h
    cases h
  | false =>
    by_cases hopen : c = '('
    · subst hopen
      rw [read_of_after rfl rfl] at h
      obtain ⟨inside, hinside, -⟩ := Option.map_eq_some_iff.1 h
      obtain ⟨inner, rest, rfl, hinner⟩ := exists_nest_of_read hinside
      exact ⟨.interpolation inner hinner, rest, by simp [StringSegment.chars]⟩
    · exact ⟨.escape c hopen hline, cs, rfl⟩

/-- Where a string goes on in plain mode stands the quote that ends it or a segment. -/
theorem exists_segment_of_read (h : read .plain text = some body) :
    (∃ rest, text = '\"' :: rest) ∨
      ∃ (segment : StringSegment) (rest : List Char), text = segment.chars ++ rest := by
  rcases text with _ | ⟨c, cs⟩
  · cases h
  by_cases hquote : c = '\"'
  · exact .inl ⟨cs, by rw [hquote]⟩
  right
  cases hline : isLineEnd c with
  | true =>
    rw [read_of_isLineEnd (.inl rfl) hline] at h
    cases h
  | false =>
    by_cases hbackslash : c = '\\'
    · subst hbackslash
      rw [read_of_after rfl rfl] at h
      obtain ⟨behind, hbehind, -⟩ := Option.map_eq_some_iff.1 h
      exact exists_segment_of_read_escaped hbehind
    · exact ⟨.plain c hquote hbackslash hline, cs, rfl⟩

/-- **What is read is segments** and the quote behind them. -/
theorem exists_segments_of_read (h : read .plain text = some body) :
    ∃ (segments : List StringSegment) (rest : List Char),
      text = StringSegment.raw segments ++ '\"' :: rest := by
  induction hn : text.length using Nat.strongRecOn generalizing text body with
  | _ n ih =>
    subst hn
    obtain ⟨rest, rfl⟩ | ⟨segment, rest, rfl⟩ := exists_segment_of_read h
    · exact ⟨[], rest, rfl⟩
    · rw [read_segment] at h
      obtain ⟨behind, hbehind, -⟩ := Option.map_eq_some_iff.1 h
      have hlength : rest.length < (segment.chars ++ rest).length := by
        rw [List.length_append]
        exact Nat.lt_add_of_pos_left (List.length_pos_iff.2 segment.chars_ne_nil)
      obtain ⟨segments, after, rfl⟩ := ih _ hlength hbehind rfl
      exact ⟨segment :: segments, after, by rw [StringSegment.raw_cons, List.append_assoc]⟩

end StringBody

/-! ## String literals -/

namespace Lexeme

open StringSegment

variable {cs rest : List Char} {segments : List StringSegment}

/-- A literal is read where one stands, and its segments tell what it is. -/
theorem stringLiteral?_of_literal (h : '\"' :: cs = literal segments ++ rest) :
    stringLiteral? ('\"' :: cs) =
      some ⟨.literal (.string (segments.any isInterpolation)
        (String.ofList (raw segments))), literal segments, rest⟩ := by
  rw [literal, List.cons_append, List.append_assoc, List.singleton_append] at h
  rw [(List.cons.inj h).2, stringLiteral?, StringBody.read_segments]
  rfl

/-- **A string is read just where a literal stands.** -/
theorem isSome_stringLiteral?_iff :
    (stringLiteral? ('\"' :: cs)).isSome = true ↔
      ∃ segments rest, '\"' :: cs = literal segments ++ rest := by
  constructor
  · intro h
    obtain ⟨lexeme, hlexeme⟩ := Option.isSome_iff_exists.1 h
    obtain ⟨body, hbody, -⟩ := Option.map_eq_some_iff.1 hlexeme
    obtain ⟨segments, rest, rfl⟩ := StringBody.exists_segments_of_read hbody
    exact ⟨segments, rest, by simp [literal]⟩
  · rintro ⟨segments, rest, h⟩
    rw [stringLiteral?_of_literal h]
    rfl

end Lexeme

namespace TokenStream

open StringSegment

variable {path text : String} {front back : List Token} {t : Token} {cs : List Char}

/-- **A string token is a literal of the grammar**, at any place of any text: at a double quote a
string is read just where a literal stands, and else the quote is invalid.  There is one such
literal at most; the token is spelled by it, keeps what stands between its quotes, and is
interpolated when a segment of it is. -/
theorem isLiteral_of_ofText (h : (ofText path text).tokens = front ++ t :: back)
    (hcs : Token.chars (t :: back) = '\"' :: cs) :
    ((Lexeme.stringLiteral? ('\"' :: cs)).isSome = true ↔
        ∃ segments rest, '\"' :: cs = literal segments ++ rest) ∧
      ((¬ ∃ segments rest, '\"' :: cs = literal segments ++ rest) →
        t.kind = .invalid (Char.toString '\"')) ∧
      ∀ segments rest, '\"' :: cs = literal segments ++ rest →
        (∀ others behind, '\"' :: cs = literal others ++ behind →
          literal others = literal segments) ∧
        t.spelling.toList = literal segments ∧ Token.chars back = rest ∧
        t.kind = .literal (.string (segments.any isInterpolation)
          (String.ofList (raw segments))) := by
  have hnext := Token.next_of_ofText h hcs
  rw [Lexeme.next_quote] at hnext
  refine ⟨Lexeme.isSome_stringLiteral?_iff, fun hnone => ?_, fun segments rest hliteral => ?_⟩
  · rw [← Lexeme.isSome_stringLiteral?_iff, Bool.not_eq_true, Option.isSome_eq_false_iff,
      Option.isNone_iff_eq_none] at hnone
    rw [hnone] at hnext
    exact (congrArg Lexeme.kind hnext).symm
  · have hstring := Lexeme.stringLiteral?_of_literal hliteral
    rw [hstring] at hnext
    obtain ⟨hkind, hspelling, hback⟩ := Lexeme.mk.inj hnext
    refine ⟨fun others behind hothers => ?_, hspelling.symm, hback.symm, hkind.symm⟩
    rw [Lexeme.stringLiteral?_of_literal hothers] at hstring
    exact congrArg Lexeme.chars (Option.some.inj hstring)

/-- A quote, a line end and parentheses inside an interpolation, and an escaped quote behind it. -/
theorem isLiteral_quoteInside :
    let front : Token := ⟨.identifier "x", ⟨⟨⟨1, 1⟩, "p"⟩, ⟨⟨1, 2⟩, "p"⟩⟩⟩
    let string : Token := ⟨.literal (.string true "\\(\"\n())\\\""),
      ⟨⟨⟨1, 2⟩, "p"⟩, ⟨⟨2, 7⟩, "p"⟩⟩⟩
    let behind : Token := ⟨.identifier "z", ⟨⟨⟨2, 7⟩, "p"⟩, ⟨⟨2, 8⟩, "p"⟩⟩⟩
    ∃ hinner : ParenthesesNest 0 "\"\n()".toList,
      let segments := [interpolation "\"\n()".toList hinner, escape '\"' (by decide) (by decide)]
      (ofText "p" "x\"\\(\"\n())\\\"\"z").tokens = [front] ++ string :: [behind] ∧
        Token.chars [string, behind] = literal segments ++ ['z'] ∧
        string.spelling.toList = literal segments ∧
        string.kind = .literal (.string (segments.any isInterpolation)
          (String.ofList (raw segments))) := by
  intro front string behind
  have hinner : ParenthesesNest 0 "\"\n()".toList :=
    (ParenthesesNest.other_iff (by decide) (by decide)).2 <|
      (ParenthesesNest.other_iff (by decide) (by decide)).2 <|
        ParenthesesNest.opening_iff.2 <|
          ParenthesesNest.closing_iff.2 ⟨0, rfl, ParenthesesNest.nil_iff.2 rfl⟩
  refine ⟨hinner, ?_⟩
  intro segments
  have htokens : (ofText "p" "x\"\\(\"\n())\\\"\"z").tokens = [front] ++ string :: [behind] := by
    decide +kernel
  have hchars : Token.chars [string, behind] = literal segments ++ ['z'] :=
    calc Token.chars [string, behind]
      _ = "\"\\(\"\n())\\\"\"z".toList := by decide +kernel
      _ = literal segments ++ ['z'] := rfl
  obtain ⟨-, hspelling, -, hkind⟩ :=
    (isLiteral_of_ofText htokens hchars).2.2 segments ['z'] rfl
  exact ⟨htokens, hchars, hspelling, hkind⟩

end TokenStream

end DeclFront
