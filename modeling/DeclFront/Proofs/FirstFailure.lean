import DeclFront.Proofs.Grammar.Language
import DeclFront.Proofs.Grammar.Unclosed

/-!
# Proofs/FirstFailure — the first failure is reported as early as it can be

A token stream is *viable* if some continuation makes it a sentence.  The parser reads a sentence up
to its first failure (`exists_first_failure`), and the rule for declarations is predictive, so the
first failure is *earliest* (`first_failure_isEarliest`): the tokens in front of the one to blame
are viable, and are no longer so with it.  If the end of the stream is to blame, or a clause that is
not closed, all of the stream is viable and is no sentence.
-/

namespace DeclFront

open Grammar

namespace Grammar

variable {stop : Location} {terminals ts rest : List Terminal}

/-! ## Up to the first failure -/

/-- **The first failure is that of the declaration behind a sentence.** -/
theorem exists_first_failure {f : Failure}
    (h : (declarations stop terminals).failures.head? = some f) :
    ∃ (sentence : Sentence) (t : Terminal) (ts : List Terminal) (cause : Cause)
      (rest : List Terminal), terminals = sentence.yield ++ t :: ts ∧
        sentence.EndsBefore (t :: ts) ∧ t.isPunctuator .semicolon = false ∧
        (declaration (t :: ts)).reading = .failed cause rest ∧ f = .ofCause stop cause := by
  induction terminals using declarations_induction with
  | nil =>
    rw [declarations] at h
    cases h
  | semicolon t ts hs ih =>
    rw [declarations_of_semicolon hs] at h
    obtain ⟨sentence, u, us, cause, rest, rfl, hends, hfailed⟩ := ih h
    exact ⟨.semicolon ⟨t, hs⟩ :: sentence, u, us, cause, rest, rfl,
      hends.cons fun _ tree htree => absurd htree (Option.not_mem_none tree), hfailed⟩
  | done t ts d rest hs hr ih =>
    rw [declarations_of_done hs hr] at h
    obtain ⟨sentence, u, us, cause, rest, rfl, hends, hfailed⟩ := ih h
    obtain ⟨tree, hyield, -, htree⟩ := exists_tree_of_declaration hr
    refine ⟨.declaration tree :: sentence, u, us, cause, rest, ?_, hends.cons ?_, hfailed⟩
    · rw [hyield, Sentence.yield_cons, List.append_assoc]
      rfl
    · rintro rfl _ ⟨⟩
      exact htree
  | failed t ts cause rest hs hr ih =>
    rw [declarations_of_failed hs hr] at h
    exact ⟨[], t, ts, cause, rest, rfl, Sentence.endsBefore_nil _, hs, hr,
      (Option.some.inj h).symm⟩

/-- A declaration that fails behind a sentence fails there still with other terminals behind it, if
it fails whatever stands behind `u`. -/
theorem failures_ne_nil_of_stuck {sentence : Sentence} {t u : Terminal} {front back : List Terminal}
    {cause : Cause} (hends : sentence.EndsBefore (t :: ts)) (hs : t.isPunctuator .semicolon = false)
    (hts : t :: ts = front ++ u :: back)
    (hlocal : ∀ back', (declaration (front ++ u :: back')).reading = .failed cause (u :: back'))
    (back' : List Terminal) :
    (declarations stop (sentence.yield ++ (front ++ u :: back'))).failures ≠ [] := by
  obtain ⟨us, hus⟩ : ∃ us, front ++ u :: back' = t :: us := by
    rcases front with _ | ⟨v, front⟩
    · exact ⟨_, by rw [List.nil_append, (List.cons.inj hts).1]⟩
    · exact ⟨_, by rw [List.cons_append, (List.cons.inj hts).1]⟩
  have hfailed := hlocal back'
  rw [hus] at hfailed ⊢
  rw [declarations_yield_append_of_endsBefore sentence (hends.congr fun hbegins =>
    begins_cons_iff.2 (begins_cons_iff.1 hbegins)), declarations_of_failed hs hfailed]
  exact List.cons_ne_nil _ _

/-- Behind a sentence, what can be continued to a declaration can be continued to a sentence. -/
theorem Sentence.viable (sentence : Sentence)
    (h : Viable (fun us => ∃ tree : DeclarationTree, us = tree.yield) ts) :
    Viable (fun us => ∃ sentence : Sentence, us = sentence.yield) (sentence.yield ++ ts) := by
  intro leading
  obtain ⟨more, hmore, tree, htree⟩ := h leading
  refine ⟨more, hmore, sentence ++ [.declaration tree], ?_⟩
  rw [List.append_assoc, htree, Sentence.yield, Sentence.yield, List.flatMap_append,
    List.flatMap_singleton]
  rfl

end Grammar

/-! ## Sentences and viable tokens -/

/-- The tokens derive from the grammar. -/
def IsSentence (tokens : List Token) : Prop :=
  ∃ sentence : Sentence, sentence.Derives tokens

/-- Some continuation of the tokens derives from the grammar. -/
def IsViable (tokens : List Token) : Prop := ∃ more, IsSentence (tokens ++ more)

/-- Tokens are a sentence just where parsing them fails nowhere. -/
theorem isSentence_iff {tokens : List Token} (stop : Location) :
    IsSentence tokens ↔ (declarations stop (Terminal.ofTokens tokens)).failures = [] := by
  constructor
  · rintro ⟨sentence, hderives⟩
    have hparse : declarations stop (sentence.yield ++ []) = _ :=
      declarations_yield_append sentence (not_begins_nil _)
    rw [List.append_nil, Sentence.derives_iff.1 hderives] at hparse
    rw [hparse, Sentence.prepend, declarations]
    rfl
  · intro h
    obtain ⟨sentence, hsentence⟩ := exists_sentence_of_failures_eq_nil h
    exact ⟨sentence, Sentence.derives_iff.2 hsentence⟩

/-- Tokens are viable if their terminals are, whatever trivia stands behind them. -/
theorem isViable_tokens {ts : List Terminal} {leading : List Token}
    (h : Viable (fun us => ∃ sentence : Sentence, us = sentence.yield) ts)
    (hts : ∀ t ∈ ts, t.IsRegular) (hleading : ∀ u ∈ leading, u.isTrivia = true) :
    IsViable (Terminal.tokens ts ++ leading) := by
  obtain ⟨more, hmore, sentence, hsentence⟩ := h leading
  have hregular : ∀ t ∈ sentence.yield, t.IsRegular := by
    intro t ht
    rw [← hsentence] at ht
    refine (List.mem_append.1 ht).elim (hts t) fun ht => ?_
    obtain ⟨hfront, htoken⟩ := hmore t ht
    exact ⟨hfront ▸ hleading, htoken⟩
  rcases more with _ | ⟨m, more⟩
  · refine ⟨[], sentence, hregular, leading, hleading, ?_⟩
    rw [← hsentence, List.append_nil, List.append_nil]
  · refine ⟨m.token :: Terminal.tokens more, sentence, hregular, [], List.forall_mem_nil _, ?_⟩
    rw [← hsentence, Terminal.tokens_append, Terminal.tokens_cons, (hmore m List.mem_cons_self).1,
      List.append_nil, List.append_assoc]

/-- The terminals of tokens that stop behind a significant one, and of more behind them. -/
theorem ofTokens_append_leading {ts : List Terminal} {u : Terminal}
    (hts : ∀ t ∈ ts, t.IsRegular) (hu : u.IsRegular) (more : List Token) :
    Terminal.ofTokens (Terminal.tokens ts ++ u.leading ++ [u.token] ++ more) =
      ts ++ u :: Terminal.ofTokens more := by
  have htokens : Terminal.tokens ts ++ u.leading ++ [u.token] ++ more =
      Terminal.tokens (ts ++ [u]) ++ more := by
    rw [Terminal.tokens_append, Terminal.tokens_cons]
    simp [Terminal.tokens]
  have hregular : ∀ t ∈ ts ++ [u], t.IsRegular := fun t ht =>
    (List.mem_append.1 ht).elim (hts t) fun ht => List.mem_singleton.1 ht ▸ hu
  rw [htokens, Terminal.ofTokens_tokens_append hregular, List.append_assoc, List.singleton_append]

namespace TokenStream

/-- The failure is reported where the stream stops to be the beginning of a sentence: at a
significant token, at the end, or at the parenthesis that opens a clause without an end. -/
def IsEarliest (s : TokenStream) (f : Failure) : Prop :=
  match f.cause with
  | .unexpected _ (some t) =>
    f.range = t.range ∧ t.isTrivia = false ∧
      ∃ front back, s.tokens = front ++ t :: back ∧ IsViable front ∧ ¬ IsViable (front ++ [t])
  | .unexpected _ none =>
    (∃ last ∈ s.tokens.getLast?, f.range = .empty last.range.stop) ∧
      IsViable s.tokens ∧ ¬ IsSentence s.tokens
  | .unclosedArguments opening =>
    f.range = opening.range ∧
      (∃ (sentence : Sentence) (trees : List AttributeTree) (last : UnclosedAttribute),
        Terminal.ofTokens s.tokens =
            sentence.yield ++ (trees.flatMap AttributeTree.yield ++ last.yield) ∧
          last.opening.terminal.token = opening) ∧
      IsViable s.tokens ∧ ¬ IsSentence s.tokens

/-- Tokens stop to be the beginning of a sentence where terminals that can be continued go on with
one that no terminals behind it make good. -/
theorem exists_isViable_of_stuck {tokens : List Token} {ts back : List Terminal} {u : Terminal}
    (hterminals : Terminal.ofTokens tokens = ts ++ u :: back)
    (hviable : Viable (fun us => ∃ sentence : Sentence, us = sentence.yield) ts) (stop : Location)
    (hstuck : ∀ back', (declarations stop (ts ++ u :: back')).failures ≠ []) :
    u.token.isTrivia = false ∧ ∃ front behind,
      tokens = front ++ u.token :: behind ∧ IsViable front ∧ ¬ IsViable (front ++ [u.token]) := by
  obtain ⟨hregular, trailing, -, htokens⟩ := Terminal.exists_trailing tokens
  rw [hterminals] at hregular htokens
  have hu : u.IsRegular := hregular u (List.mem_append_right _ List.mem_cons_self)
  have hts : ∀ v ∈ ts, v.IsRegular := fun v hv => hregular v (List.mem_append_left _ hv)
  refine ⟨hu.2, Terminal.tokens ts ++ u.leading, Terminal.tokens back ++ trailing, ?_,
    isViable_tokens hviable hts hu.1, ?_⟩
  · rw [htokens, Terminal.tokens_append, Terminal.tokens_cons]
    simp only [List.append_assoc, List.cons_append]
  · rintro ⟨more, hmore⟩
    rw [isSentence_iff stop, ofTokens_append_leading hts hu] at hmore
    exact hstuck _ hmore

/-- **The first failure is earliest.** -/
theorem first_failure_isEarliest {s : TokenStream} {f : Failure}
    (h : s.parse.failures.head? = some f) : s.IsEarliest f := by
  have hsentence : ¬ IsSentence s.tokens := by
    rw [isSentence_iff s.stop]
    intro hnil
    rw [parse, hnil] at h
    cases h
  obtain ⟨hregular, trailing, htrailing, htokens⟩ := Terminal.exists_trailing s.tokens
  obtain ⟨sentence, t, ts, cause, rest, hterminals, hends, hs, hfailed, rfl⟩ :=
    exists_first_failure h
  have hpredictive := predictive_declaration (t :: ts)
  have hviable (hdeclaration : Viable (fun us => ∃ tree : DeclarationTree, us = tree.yield)
      (t :: ts)) : IsViable s.tokens := by
    rw [htokens]
    refine isViable_tokens ?_ hregular htrailing
    rw [hterminals]
    exact sentence.viable hdeclaration
  rcases cause with ⟨wanted, _ | found⟩ | opening
  · obtain ⟨last, hlast, hstop⟩ := exists_stop_eq (s := s)
      (hterminals ▸ List.append_ne_nil_of_right_ne_nil _ (List.cons_ne_nil t ts))
    exact ⟨⟨last, hlast, congrArg Range.empty hstop⟩, hviable (hpredictive.ended hfailed),
      hsentence⟩
  · obtain ⟨front, u, back, rfl, hts, hfront, hlocal⟩ := hpredictive.stuck hfailed
    rw [hts, ← List.append_assoc] at hterminals
    refine ⟨rfl, exists_isViable_of_stuck hterminals (sentence.viable hfront) s.stop
      fun back' => ?_⟩
    rw [List.append_assoc]
    exact failures_ne_nil_of_stuck hends hs hts hlocal back'
  · obtain ⟨trees, last, hts, rfl⟩ := exists_unclosed_of_declaration hfailed
    rw [hts] at hviable hterminals
    exact ⟨rfl, ⟨sentence, trees, last, hterminals, rfl⟩, hviable (last.viable trees), hsentence⟩

/-- Where a parenthesis stands apart from the name of an attribute, it is blamed: the tokens up to
the space in front of it can be continued. -/
theorem isEarliest_parenthesis :
    let parenthesis := onFirstLine (.punctuator .leftParen) 4 5
    let failure : Failure := ⟨.unexpected .declaration (some parenthesis), parenthesis.range⟩
    (ofText "p" "@a (").parse.failures.head? = some failure ∧
      (ofText "p" "@a (").IsEarliest failure := by
  intro parenthesis failure
  have hterminals : Terminal.ofTokens (ofText "p" "@a (").tokens =
      [⟨[], onFirstLine (.punctuator .atSign) 1 2⟩, ⟨[], onFirstLine (.identifier "a") 2 3⟩,
        ⟨[onFirstLine (.control .space) 3 4], parenthesis⟩] := by decide +kernel
  have hreading : (declaration (Terminal.ofTokens (ofText "p" "@a (").tokens)).reading =
      .failed (.unexpected .declaration (some parenthesis))
        [⟨[onFirstLine (.control .space) 3 4], parenthesis⟩] := by decide +kernel
  have hfailure : (ofText "p" "@a (").parse.failures.head? = some failure := by
    rw [hterminals] at hreading
    rw [parse, hterminals, declarations_of_failed rfl hreading]
    rfl
  exact ⟨hfailure, first_failure_isEarliest hfailure⟩

end TokenStream

end DeclFront
