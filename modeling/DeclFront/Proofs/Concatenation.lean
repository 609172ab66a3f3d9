import DeclFront.Proofs.Grammar.Acceptance
import DeclFront.Proofs.Grammar.Leading
import DeclFront.Proofs.Grammar.Loop

/-!
# Proofs/Concatenation — one token stream behind another

    parse front = ok  ⟹  parse (front ++ back) = parse front, then parse back

A stream that parses without a failure leaves nothing behind that the parser would remember: not
where it stands, not the trivia at its end, and not the end of the text, which is the end of the
whole for every failure that blames it (`stop_append`).  So any stream can follow, whatever fails in
it, and is parsed as if it stood alone (`parse_append`); only a point would go on with an import in
front of it.
-/

namespace DeclFront

open Grammar

namespace Grammar

variable {stop : Location} {front back : List Terminal}

/-- What a sentence says does not depend on what follows it. -/
theorem Sentence.prepend_eq_followedBy (sentence : Sentence) (outcome : Outcome) :
    sentence.prepend outcome = (sentence.prepend .empty).followedBy outcome := by
  simp [prepend, Outcome.followedBy, Outcome.empty, EmptyCollection.emptyCollection,
    DiagnosticPool.empty]

/-- **Terminals that parse without a failure may stand in front of others**, in a text that ends
elsewhere. -/
theorem declarations_append (h : (declarations stop front).failures = [])
    (hback : ¬ Begins (·.isPunctuator .period) back) (stop' : Location) :
    declarations stop' (front ++ back) =
      (declarations stop front).followedBy (declarations stop' back) := by
  obtain ⟨sentence, rfl⟩ := exists_sentence_of_failures_eq_nil h
  have hfront : declarations stop (sentence.yield ++ []) =
      sentence.prepend (declarations stop []) := declarations_yield_append _ (not_begins_nil _)
  rw [List.append_nil, declarations] at hfront
  rw [declarations_yield_append _ hback, hfront, Sentence.prepend_eq_followedBy]

/-- A punctuator begins the terminals of a stream when it is the first significant token, whatever
trivia is added in front. -/
theorem begins_addLeading_ofTokens_iff {p : Punctuator} (trivia stream : List Token) :
    Begins (·.isPunctuator p) (Terminal.addLeading trivia (Terminal.ofTokens stream)) ↔
      ∃ t ∈ (stream.filter (!·.isTrivia)).head?, t.kind.isPunctuator p = true := by
  rw [← Terminal.map_token_ofTokens]
  rcases Terminal.ofTokens stream with _ | ⟨t, ts⟩
  · simp [Terminal.addLeading]
  · simp [Terminal.addLeading, Terminal.isPunctuator]

end Grammar

namespace TokenStream

/-- The end of a text is the end of its back. -/
theorem stop_append (path other : String) (front : List Token) {back : List Token}
    (h : back ≠ []) : stop ⟨path, front ++ back⟩ = stop ⟨other, back⟩ := by
  rw [stop, stop, List.getLast?_append, List.getLast?_eq_some_getLast h]
  rfl

/-- The back of a text is parsed as it is alone: an empty one has no end to blame. -/
theorem declarations_stop_append (path : String) (front : List Token) (back : TokenStream) :
    declarations (stop ⟨path, front ++ back.tokens⟩) (Terminal.ofTokens back.tokens) =
      back.parse := by
  obtain ⟨other, tokens⟩ := back
  rcases tokens with _ | ⟨t, tokens⟩
  · rw [parse, Terminal.ofTokens_trivia (List.forall_mem_nil _), declarations, declarations]
  · rw [stop_append path other front (List.cons_ne_nil t tokens), parse]

/-- **Parsing composes**: a stream behind one that parses without a failure is parsed as it is
alone.  Its first significant token must be no point, and all else is up to it: its failures are the
only ones, and nothing moves. -/
theorem parse_append {front back : TokenStream} (path : String)
    (hfront : front.parse.isSuccess = true)
    (hback : ∀ t ∈ back.significant.head?, t.kind.isPunctuator .period = false) :
    let whole : TokenStream := ⟨path, front.tokens ++ back.tokens⟩
    whole.parse.tree.declarations =
        front.parse.tree.declarations ++ back.parse.tree.declarations ∧
      whole.parse.diagnostics.diagnostics =
        front.parse.diagnostics.diagnostics ++ back.parse.diagnostics.diagnostics ∧
      whole.parse.failures = back.parse.failures := by
  intro whole
  have hfailures : front.parse.failures = [] := List.isEmpty_iff.1 hfront
  obtain ⟨trivia, hterminals⟩ := Terminal.exists_ofTokens_append front.tokens back.tokens
  have hperiod : ¬ Begins (·.isPunctuator .period)
      (Terminal.addLeading trivia (Terminal.ofTokens back.tokens)) := by
    rw [begins_addLeading_ofTokens_iff]
    rintro ⟨t, ht, hpoint⟩
    rw [hback t ht] at hpoint
    cases hpoint
  have hparse : whole.parse = front.parse.followedBy back.parse := by
    rw [parse, hterminals, declarations_append hfailures hperiod, declarations_addLeading,
      declarations_stop_append]
    rfl
  rw [hparse]
  exact ⟨rfl, rfl, by rw [Outcome.followedBy, hfailures, List.nil_append]⟩

/-- What a broken stream has against it is the same behind another, also at the end of the text. -/
theorem parse_append_brokenBack :
    let front := ofText "p" "private(set) import a"
    let back := ofText "q" " ] public(set) import b enum"
    let whole : TokenStream := ⟨"p", front.tokens ++ back.tokens⟩
    front.parse.isSuccess = true ∧
      back.significant.head?.map Token.spelling = some "]" ∧
      whole.parse.tree.declarations =
        front.parse.tree.declarations ++ back.parse.tree.declarations ∧
      whole.parse.failures = back.parse.failures ∧
      back.parse.failures.map Failure.text =
        ["Parse error at q[1:2-1:3]: Expected declaration, found ']'",
          "Parse error at q[1:29-1:29]: Expected identifier after 'enum', found end of file"] := by
  intro front back whole
  have hfront : front.parse.isSuccess = true := by decide +kernel
  have hback : ∀ t ∈ back.significant.head?, t.kind.isPunctuator .period = false := by
    decide +kernel
  obtain ⟨hdeclarations, -, hfailures⟩ := parse_append "p" hfront hback
  exact ⟨hfront, by decide +kernel, hdeclarations, hfailures, by decide +kernel⟩

end TokenStream

end DeclFront
