import DeclFront.Proofs.Lexeme.FirstChar

/-!
# Proofs/Lexeme/Symbol — what the recognizer for symbols finds

A symbol is the arrow, an operator that starts with two points, a delimiter or a run of operator
characters (`IsSymbol`).  A run stops in front of a comment and nowhere else where it could go on,
so no comment starts inside it (`isSymbolRun_symbolRun`).
-/

namespace DeclFront

/-! ## Comments in a text -/

/-- The marks that begin a comment. -/
def commentMarks : List (List Char) := [['/', '/'], ['/', '*']]

/-- A comment starts with one of two marks. -/
theorem startsComment_iff {text : List Char} :
    startsComment text = true ↔ ∃ mark ∈ commentMarks, mark <+: text := by
  simp only [commentMarks, List.mem_cons, List.not_mem_nil, or_false, exists_eq_or_imp,
    exists_eq_left]
  constructor
  · intro h
    unfold startsComment at h
    split at h
    · exact .inl ⟨_, rfl⟩
    · exact .inr ⟨_, rfl⟩
    · cases h
  · rintro (⟨rest, rfl⟩ | ⟨rest, rfl⟩) <;> rfl

/-- No comment starts inside the characters, in front of `rest`. -/
def SparesComments (chars rest : List Char) : Prop :=
  ∀ more, more <:+ chars → more ≠ [] → startsComment (more ++ rest) = false

namespace SparesComments

variable {chars rest : List Char}

theorem nil (rest : List Char) : SparesComments [] rest :=
  fun _ hmore hne => absurd (List.suffix_nil.1 hmore) hne

/-- One character more, at which no comment starts. -/
theorem cons {c : Char} (hc : startsComment (c :: (chars ++ rest)) = false)
    (h : SparesComments chars rest) : SparesComments (c :: chars) rest := by
  intro more hmore hne
  rcases List.suffix_cons_iff.1 hmore with rfl | hmore
  · exact hc
  · exact h more hmore hne

/-- A comment needs a slash to start. -/
theorem of_notMem (h : '/' ∉ chars) : SparesComments chars rest := by
  rintro (_ | ⟨c, cs⟩) hmore hne
  · exact absurd rfl hne
  · refine Lexeme.startsComment_of_ne ?_ (cs ++ rest)
    rintro rfl
    exact h (hmore.subset List.mem_cons_self)

/-- **No mark stands in the characters.** -/
theorem not_infix (h : SparesComments chars rest) {mark : List Char} (hmark : mark ∈ commentMarks) :
    ¬ mark <:+: chars := by
  rintro ⟨before, behind, rfl⟩
  have hstarts : startsComment (mark ++ behind ++ rest) = true :=
    startsComment_iff.2 ⟨mark, hmark, behind ++ rest, by rw [List.append_assoc]⟩
  have hne : mark ++ behind ≠ [] := by
    refine List.append_ne_nil_of_left_ne_nil ?_ behind
    rintro rfl
    revert hmark
    decide
  rw [h _ ⟨before, by rw [List.append_assoc]⟩ hne] at hstarts
  cases hstarts

end SparesComments

/-! ## Runs -/

/-- What can stand behind a run that is as long as it can be: the end of the text, another
character, or a comment. -/
inductive EndsRun (accepts : Char → Bool) : List Char → Prop where
  | nil : EndsRun accepts []
  | other {c : Char} {cs : List Char} (hc : accepts c = false) : EndsRun accepts (c :: cs)
  | comment {mark rest : List Char} (hmark : mark ∈ commentMarks) : EndsRun accepts (mark ++ rest)

/-- In front of `rest` the run is as long as it can be. -/
structure IsSymbolRun (accepts : Char → Bool) (run rest : List Char) : Prop where
  accepts_of_mem : ∀ c ∈ run, accepts c = true
  sparesComments : SparesComments run rest
  endsRun : EndsRun accepts rest

/-- **A run goes on to where it has to stop.** -/
theorem isSymbolRun_symbolRun (accepts : Char → Bool) (text : List Char) :
    IsSymbolRun accepts (symbolRun accepts text).1 (symbolRun accepts text).2 := by
  induction text with
  | nil => exact ⟨List.forall_mem_nil _, .nil [], .nil⟩
  | cons c cs ih =>
    rw [symbolRun]
    split
    · rename_i hc
      rw [Bool.and_eq_true, Bool.not_eq_true'] at hc
      refine ⟨List.forall_mem_cons.2 ⟨hc.1, ih.accepts_of_mem⟩, .cons ?_ ih.sparesComments,
        ih.endsRun⟩
      rw [append_symbolRun]
      exact hc.2
    · rename_i hc
      refine ⟨List.forall_mem_nil _, .nil _, ?_⟩
      cases hstarts : startsComment (c :: cs) with
      | true =>
        obtain ⟨mark, hmark, rest, hrest⟩ := startsComment_iff.1 hstarts
        exact hrest ▸ .comment hmark
      | false => exact .other (by simpa [hstarts] using hc)

/-! ## Operators and punctuators -/

/-- All runs are operators but four of one character. -/
theorem Punctuator.ofOperator?_eq_none_iff {run : String} :
    ofOperator? run = none ↔ run ∉ ["=", "!", "&", "?"] := by
  unfold ofOperator?
  split <;> simp_all

/-- No delimiter is a run of operator characters. -/
theorem Punctuator.ofDelimiter?_ne {p : Punctuator} (hp : p ∈ [equal, exclaim, amp, question])
    (c : Char) : ofDelimiter? c ≠ some p := by
  intro hc
  unfold ofDelimiter? at hc
  split at hc <;> cases hc <;> exact absurd hp (by decide)

/-- A run is the operator that it spells, unless it is a punctuator. -/
theorem TokenKind.ofOperatorRun_eq_operator_iff {run spelling : String} :
    ofOperatorRun run = operator spelling ↔
      spelling = run ∧ run ∉ ["=", "!", "&", "?"] := by
  rw [← Punctuator.ofOperator?_eq_none_iff, ofOperatorRun]
  rcases Punctuator.ofOperator? run with _ | p <;> simp [eq_comm]

/-- The characters of operators that start with two points. -/
def isPointOperatorChar (c : Char) : Bool := c == '.' || isOperatorChar c

/-- An operator or a punctuator at the front of a text. -/
inductive IsSymbol : List Char → Lexeme → Prop where
  | arrow (rest : List Char) : IsSymbol ('-' :: '>' :: rest) ⟨.punctuator .arrow, ['-', '>'], rest⟩
  | points {run rest : List Char} (hrun : IsSymbolRun isPointOperatorChar run rest) :
      IsSymbol ('.' :: '.' :: (run ++ rest))
        ⟨.operator (String.ofList ('.' :: '.' :: run)), '.' :: '.' :: run, rest⟩
  | delimiter {c : Char} {p : Punctuator} (hp : Punctuator.ofDelimiter? c = some p)
      (rest : List Char) : IsSymbol (c :: rest) ⟨.punctuator p, [c], rest⟩
  | run {run rest : List Char} (hrun : IsSymbolRun isOperatorChar run rest)
      (harrow : ¬ ['-', '>'] <+: run) :
      IsSymbol (run ++ rest) ⟨.ofOperatorRun (String.ofList run), run, rest⟩

namespace Lexeme

open Recognizer

variable {c : Char} {cs text : List Char} {lexeme : Lexeme}

/-- **Each way to find a symbol says what it is.** -/
theorem isSymbol_of_symbol? (h : symbol? text = some lexeme) : IsSymbol text lexeme := by
  rw [symbol?, firstOf, List.findSome?_cons] at h
  rcases harrow : arrow? text with _ | found
  · rw [harrow] at h
    obtain ⟨recognizer, hmem, hfound⟩ := List.exists_of_findSome?_eq_some h
    simp only [List.mem_cons, List.not_mem_nil, or_false] at hmem
    rcases hmem with rfl | rfl | rfl
    · unfold pointOperator? at hfound
      split at hfound
      · rename_i inner
        obtain rfl := Option.some.inj hfound
        have hpoints := IsSymbol.points (isSymbolRun_symbolRun isPointOperatorChar inner)
        rwa [append_symbolRun] at hpoints
      · cases hfound
    · unfold delimiter? at hfound
      split at hfound
      · cases hfound
      · split at hfound
        · cases hfound
        · obtain ⟨p, hp, rfl⟩ := Option.map_eq_some_iff.1 hfound
          exact .delimiter hp _
    · unfold operator? at hfound
      split at hfound
      · cases hfound
      · rename_i run rest hne hrun
        obtain rfl := Option.some.inj hfound
        have htext := append_symbolRun isOperatorChar text
        have hlongest := isSymbolRun_symbolRun isOperatorChar text
        rw [hrun] at htext hlongest
        subst htext
        refine .run hlongest fun hstart => ?_
        -- The arrow would have been found before the run.
        obtain ⟨behind, rfl⟩ := hstart
        cases harrow
  · rw [harrow] at h
    obtain rfl := Option.some.inj h
    unfold arrow? at harrow
    split at harrow
    · obtain rfl := Option.some.inj harrow
      exact .arrow _
    · cases harrow

end Lexeme

end DeclFront
