import DeclFront.Grammar.Terminal

/-!
# Proofs/Grammar/Terminals — a token stream and its terminals say the same

Written out, terminals give back the tokens they were made of, but for the trivia behind the last of
them; and they are made in no other way, since a terminal has trivia in front and a significant
token at its end (`ofTokens_eq_iff`).
-/

namespace DeclFront.Terminal

/-- A significant token with nothing but trivia in front. -/
def IsRegular (t : Terminal) : Prop :=
  (∀ u ∈ t.leading, u.isTrivia = true) ∧ t.token.isTrivia = false

/-- The tokens that terminals are made of. -/
def tokens (terminals : List Terminal) : List Token :=
  terminals.flatMap fun t => t.leading ++ [t.token]

theorem tokens_cons (t : Terminal) (ts : List Terminal) :
    tokens (t :: ts) = t.leading ++ t.token :: tokens ts := by
  rw [tokens, List.flatMap_cons, List.append_assoc]
  rfl

theorem tokens_append (ts us : List Terminal) : tokens (ts ++ us) = tokens ts ++ tokens us :=
  List.flatMap_append

/-- The tokens of terminals spell what the terminals do. -/
theorem join_tokens (ts : List Terminal) :
    String.join ((tokens ts).map Token.spelling) = String.join (ts.map spelling) := by
  apply String.toList_injective
  simp [tokens, spelling, String.toList_join, List.flatMap_map, List.flatMap_assoc]

/-- The last token written out is that of the last terminal: trivia stands in front. -/
theorem getLast?_tokens (ts : List Terminal) : (tokens ts).getLast? = ts.getLast?.map token := by
  rcases List.eq_nil_or_concat ts with rfl | ⟨front, last, rfl⟩
  · rfl
  · simp [tokens]

theorem ofTokens_cons (t : Token) (tokens : List Token) :
    ofTokens (t :: tokens) = prepend t (ofTokens tokens) := rfl

/-- Trivia alone makes no terminal. -/
theorem ofTokens_trivia {tokens : List Token} (h : ∀ t ∈ tokens, t.isTrivia = true) :
    ofTokens tokens = [] := by
  induction tokens with
  | nil => rfl
  | cons t tokens ih =>
    rw [ofTokens_cons, ih fun u hu => h u (List.mem_cons_of_mem _ hu), prepend,
      if_pos (h t List.mem_cons_self)]

/-- **Trivia and a significant token behind it make one terminal.** -/
theorem ofTokens_leading_append {leading : List Token} {token : Token} (tokens : List Token)
    (hleading : ∀ t ∈ leading, t.isTrivia = true) (htoken : token.isTrivia = false) :
    ofTokens (leading ++ token :: tokens) = ⟨leading, token⟩ :: ofTokens tokens := by
  induction leading with
  | nil =>
    rw [List.nil_append, ofTokens_cons, prepend.eq_def, if_neg (by simp [htoken])]
  | cons t leading ih =>
    rw [List.cons_append, ofTokens_cons, ih fun u hu => hleading u (List.mem_cons_of_mem _ hu),
      prepend, if_pos (hleading t List.mem_cons_self)]

/-- **Regular terminals, written out, are read back** in front of what follows them. -/
theorem ofTokens_tokens_append {terminals : List Terminal}
    (hterminals : ∀ t ∈ terminals, t.IsRegular) (stream : List Token) :
    ofTokens (tokens terminals ++ stream) = terminals ++ ofTokens stream := by
  induction terminals with
  | nil => rfl
  | cons t ts ih =>
    obtain ⟨hleading, htoken⟩ := hterminals t List.mem_cons_self
    rw [tokens_cons, List.append_assoc, List.cons_append,
      ofTokens_leading_append _ hleading htoken,
      ih fun u hu => hterminals u (List.mem_cons_of_mem _ hu), List.cons_append]

/-- Terminals are got back from their tokens. -/
theorem ofTokens_tokens {terminals : List Terminal} (h : ∀ t ∈ terminals, t.IsRegular) :
    ofTokens (tokens terminals) = terminals := by
  have heq := ofTokens_tokens_append h []
  rwa [List.append_nil, ofTokens_trivia (List.forall_mem_nil _), List.append_nil] at heq

/-- **A token stream is its terminals and trivia behind them.** -/
theorem exists_trailing (stream : List Token) :
    (∀ t ∈ ofTokens stream, t.IsRegular) ∧
      ∃ trailing, (∀ t ∈ trailing, t.isTrivia = true) ∧
        stream = tokens (ofTokens stream) ++ trailing := by
  induction stream with
  | nil => exact ⟨List.forall_mem_nil _, [], List.forall_mem_nil _, rfl⟩
  | cons t stream ih =>
    obtain ⟨hregular, trailing, htrailing, hstream⟩ := ih
    rw [ofTokens_cons, prepend.eq_def]
    cases ht : t.isTrivia with
    | false =>
      rw [if_neg (by simp)]
      refine ⟨?_, trailing, htrailing, ?_⟩
      · rintro u (_ | ⟨_, hu⟩)
        · exact ⟨List.forall_mem_nil _, ht⟩
        · exact hregular u hu
      · rw [tokens_cons, List.nil_append, List.cons_append, ← hstream]
    | true =>
      rw [if_pos rfl]
      cases hfirst : ofTokens stream with
      | nil =>
        refine ⟨List.forall_mem_nil _, t :: trailing, ?_, ?_⟩
        · rintro u (_ | ⟨_, hu⟩)
          · exact ht
          · exact htrailing u hu
        · rw [hfirst] at hstream
          exact congrArg (t :: ·) hstream
      | cons first others =>
        rw [hfirst] at hregular hstream
        obtain ⟨hleading, htoken⟩ := hregular first List.mem_cons_self
        refine ⟨?_, trailing, htrailing, ?_⟩
        · rintro u (_ | ⟨_, hu⟩)
          · refine ⟨?_, htoken⟩
            rintro v (_ | ⟨_, hv⟩)
            · exact ht
            · exact hleading v hv
          · exact hregular u (List.mem_cons_of_mem _ hu)
        · rw [hstream, tokens_cons, tokens_cons]
          rfl

/-- The terminals of a token stream, told without folding over it. -/
theorem ofTokens_eq_iff {stream : List Token} {terminals : List Terminal} :
    ofTokens stream = terminals ↔ (∀ t ∈ terminals, t.IsRegular) ∧
      ∃ trailing, (∀ t ∈ trailing, t.isTrivia = true) ∧ stream = tokens terminals ++ trailing := by
  constructor
  · rintro rfl
    exact exists_trailing stream
  · rintro ⟨hterminals, trailing, htrailing, rfl⟩
    rw [ofTokens_tokens_append hterminals, ofTokens_trivia htrailing, List.append_nil]

/-- The significant ones among the tokens of terminals, and of trivia behind them. -/
theorem filter_tokens_append {ts : List Terminal} {trivia : List Token}
    (hts : ∀ t ∈ ts, t.IsRegular) (htrivia : ∀ t ∈ trivia, t.isTrivia = true) :
    (tokens ts ++ trivia).filter (!·.isTrivia) = ts.map token := by
  rw [← map_token_ofTokens, ofTokens_eq_iff.2 ⟨hts, trivia, htrivia, rfl⟩]

/-- A stretch of the terminals is a stretch of the tokens. -/
theorem exists_eq_of_infix {stream : List Token} {ts : List Terminal}
    (h : ts <:+: ofTokens stream) :
    (∀ t ∈ ts, t.IsRegular) ∧ ∃ front back, stream = front ++ (tokens ts ++ back) := by
  obtain ⟨hregular, trailing, -, hstream⟩ := exists_trailing stream
  refine ⟨fun t ht => hregular t (h.subset ht), ?_⟩
  obtain ⟨before, behind, hts⟩ := h
  refine ⟨tokens before, tokens behind ++ trailing, ?_⟩
  rw [hstream, ← hts, tokens_append, tokens_append]
  simp

/-- A terminal has its token from the stream. -/
theorem token_mem_of_mem_ofTokens {stream : List Token} {t : Terminal} (h : t ∈ ofTokens stream) :
    t.token ∈ stream := by
  have hmem := List.mem_map_of_mem (f := token) h
  rw [map_token_ofTokens] at hmem
  exact (List.mem_filter.1 hmem).1

end DeclFront.Terminal

namespace DeclFront.TokenStream

/-- The end of a stream with terminals is the end of its last token. -/
theorem exists_stop_eq {s : TokenStream} (h : Terminal.ofTokens s.tokens ≠ []) :
    ∃ last ∈ s.tokens.getLast?, s.stop = last.range.stop := by
  rw [stop]
  cases hlast : s.tokens.getLast? with
  | none =>
    rw [List.getLast?_eq_none_iff.1 hlast, Terminal.ofTokens_trivia (List.forall_mem_nil _)] at h
    exact absurd rfl h
  | some last => exact ⟨last, rfl, rfl⟩

end DeclFront.TokenStream
