import DeclFront.Grammar.Outcome
import DeclFront.Proofs.Grammar.Reading
import DeclFront.Proofs.Grammar.Terminals
import DeclFront.Proofs.Printing.Kinds
import DeclFront.Proofs.Printing.Printable

/-!
# Proofs/Printing/Reading — names read off a text description

Tokens are *bare* here: they stand nowhere in particular.  A rule reads the part of a tree whose
kinds stand in front, but for its ranges, or fails when a name of that part is reserved; so each
lemma says that a reading is `DecidedBy` the names.
-/

namespace DeclFront

open TokenKind

/-! ## Bare tokens -/

/-- No location in particular. -/
def Location.forget (_ : Location) : Location := .start ""

/-- A range for tokens of which only the kind matters. -/
def Range.nowhere : Range := .empty (.start "")

/-- A token of which only the kind matters. -/
def Token.bare (k : TokenKind) : Token := ⟨k, .nowhere⟩

namespace Terminal

/-- The terminals of bare tokens. -/
def ofKinds (ks : List TokenKind) : List Terminal := ofTokens (ks.map Token.bare)

@[simp] theorem ofKinds_nil : ofKinds [] = [] := rfl

theorem ofKinds_cons {k : TokenKind} (hk : k.isTrivia = false) (ks : List TokenKind) :
    ofKinds (k :: ks) = ⟨[], .bare k⟩ :: ofKinds ks := by
  rw [ofKinds, List.map_cons]
  exact ofTokens_leading_append _ (List.forall_mem_nil _) hk

/-- The trivia in front goes to the terminal behind it. -/
theorem ofKinds_append_cons {lead : List TokenKind} (hlead : ∀ k ∈ lead, k.isTrivia = true)
    {k : TokenKind} (hk : k.isTrivia = false) (ks : List TokenKind) :
    ofKinds (lead ++ k :: ks) = ⟨lead.map .bare, .bare k⟩ :: ofKinds ks := by
  rw [ofKinds, List.map_append, List.map_cons]
  exact ofTokens_leading_append _ (List.forall_mem_map.2 hlead) hk

end Terminal

/-- No word is a punctuator. -/
theorem TokenKind.isPunctuator_ofWord (word : String) (p : Punctuator) :
    (ofWord word).isPunctuator p = false := by
  rw [ofWord]
  split
  · rfl
  · split <;> rfl

theorem TokenKind.isTrivia_space : ∀ k ∈ [TokenKind.control .space], k.isTrivia = true :=
  List.forall_mem_singleton.2 rfl

theorem TokenKind.isTrivia_lineFeed : ∀ k ∈ [TokenKind.control .lineFeed], k.isTrivia = true :=
  List.forall_mem_singleton.2 rfl

/-! ## Decided readings -/

namespace Reading

variable {α β : Type} {good also : Prop} {value : α} {result : β} {rest behind : List Terminal}
  {reading : Reading α}

/-- The reading is of the value, with `rest` left, if the condition holds, and fails if not. -/
def DecidedBy (good : Prop) (value : α) (rest : List Terminal) (reading : Reading α) : Prop :=
  (good ∧ reading = .done value rest) ∨ (¬ good ∧ ∃ cause left, reading = .failed cause left)

theorem decidedBy_done (value : α) (rest : List Terminal) :
    (done value rest).DecidedBy True value rest := .inl ⟨trivial, rfl⟩

theorem DecidedBy.congr (h : reading.DecidedBy good value rest) (hiff : good ↔ also) :
    reading.DecidedBy also value rest := by
  rwa [← propext hiff]

theorem DecidedBy.map {f : α → β} (h : reading.DecidedBy good value rest)
    (hvalue : f value = result) : (reading.map f).DecidedBy good result rest := by
  rcases h with ⟨hgood, rfl⟩ | ⟨hbad, cause, left, rfl⟩
  · exact .inl ⟨hgood, congrArg (done · rest) hvalue⟩
  · exact .inr ⟨hbad, cause, left, rfl⟩

/-- **One rule after another is decided by what decides each.** -/
theorem DecidedBy.andThen {rule : α → List Terminal → Reading β}
    (h : reading.DecidedBy good value rest)
    (hrule : (rule value rest).DecidedBy also result behind) :
    (reading.andThen rule).DecidedBy (good ∧ also) result behind := by
  rcases h with ⟨hgood, rfl⟩ | ⟨hbad, cause, left, rfl⟩
  · exact hrule.congr (and_iff_right hgood).symm
  · exact .inr ⟨fun h => hbad h.1, cause, left, rfl⟩

end Reading

/-- The outcome is the declarations and nothing else if the condition holds, and has failures if
not. -/
def Outcome.DecidedBy (good : Prop) (ds : List Declaration) (outcome : Outcome) : Prop :=
  (good ∧ outcome = ⟨⟨ds⟩, ∅, []⟩) ∨ (¬ good ∧ outcome.failures ≠ [])

/-! ## Names -/

/-- A name without its range. -/
def Name.bare (n : String) : Name := ⟨n, .nowhere⟩

namespace Grammar

open Terminal

variable {ks lead gap : List TokenKind}

theorem name?_of_token_eq {t : Terminal} {n : String} (ht : t.token = .bare (ofWord n)) :
    t.name? = (ofWord n).name?.map Name.bare := by
  rw [Terminal.name?, Terminal.range, ht]
  rfl

/-- A word is read as a name unless it is reserved. -/
theorem name_ofKinds (wanted : Expectation) (hlead : ∀ k ∈ lead, k.isTrivia = true) (n : String)
    (ks : List TokenKind) :
    (name wanted (ofKinds (lead ++ ofWord n :: ks))).DecidedBy (¬ IsReserved n) (.bare n)
      (ofKinds ks) := by
  rw [ofKinds_append_cons hlead (isTrivia_ofWord n), name, name?_of_token_eq rfl]
  by_cases hn : IsReserved n
  · rw [name?_ofWord_eq_none_iff.2 hn]
    exact .inr ⟨not_not_intro hn, _, _, rfl⟩
  · rw [name?_ofWord_of_not_isReserved hn]
    exact .inl ⟨hn, rfl⟩

/-- Names with separators are read unless one of them is reserved. -/
theorem furtherNames_ofKinds {separator : Punctuator} (wanted : Expectation)
    (hgap : ∀ k ∈ gap, k.isTrivia = true) (ns : List String)
    (hks : ¬ Begins (·.isPunctuator separator) (ofKinds ks)) :
    (furtherNames separator wanted (ofKinds
      ((ns.flatMap fun m => .punctuator separator :: (gap ++ [ofWord m])) ++ ks))).DecidedBy
        (∀ n ∈ ns, ¬ IsReserved n) (ns.map .bare) (ofKinds ks) := by
  induction ns with
  | nil =>
    refine .inl ⟨List.forall_mem_nil _, ?_⟩
    rw [List.flatMap_nil, List.nil_append]
    rcases hts : ofKinds ks with _ | ⟨t, ts⟩
    · rfl
    · rw [hts, begins_cons_iff] at hks
      rw [furtherNames.eq_def]
      exact if_neg hks
  | cons n ns ih =>
    have hseparator : (⟨[], .bare (.punctuator separator)⟩ : Terminal).isPunctuator separator =
        true := beq_self_eq_true _
    rw [List.flatMap_cons, List.cons_append, List.cons_append, List.append_assoc, List.append_assoc,
      ofKinds_cons rfl, List.singleton_append, ofKinds_append_cons hgap (isTrivia_ofWord n),
      furtherNames.eq_def]
    simp only [hseparator, if_true]
    rw [name?_of_token_eq rfl, List.forall_mem_cons]
    by_cases hn : IsReserved n
    · rw [name?_ofWord_eq_none_iff.2 hn]
      exact .inr ⟨fun h => h.1 hn, _, _, rfl⟩
    · rw [name?_ofWord_of_not_isReserved hn]
      exact (ih.map rfl).congr (and_iff_right hn).symm

theorem names_ofKinds {separator : Punctuator} (wantedFirst wantedNext : Expectation)
    (hlead : ∀ k ∈ lead, k.isTrivia = true) (hgap : ∀ k ∈ gap, k.isTrivia = true) (n : String)
    (ns : List String) (hks : ¬ Begins (·.isPunctuator separator) (ofKinds ks)) :
    (names separator wantedFirst wantedNext
      (ofKinds (lead ++ ofNames (.punctuator separator :: gap) (n :: ns) ++ ks))).DecidedBy
        (∀ m ∈ n :: ns, ¬ IsReserved m) ⟨.bare n, ns.map .bare⟩ (ofKinds ks) := by
  rw [ofNames, List.append_assoc, List.cons_append, names]
  refine Reading.DecidedBy.congr ?_ List.forall_mem_cons.symm
  refine (name_ofKinds wantedFirst hlead n _).andThen ?_
  exact (furtherNames_ofKinds wantedNext hgap ns hks).map rfl

/-- The last of bare names stands nowhere too. -/
theorem Names.range_last_bare (n : String) (ns : List String) :
    (⟨.bare n, ns.map .bare⟩ : Names).last.range = .nowhere := by
  rw [Names.last, List.getLast?_map]
  rcases ns.getLast? with _ | m <;> rfl

end Grammar

end DeclFront
