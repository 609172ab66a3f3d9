import DeclFront.Proofs.Grammar.Loop
import DeclFront.Proofs.Grammar.Resumption
import DeclFront.Proofs.Grammar.Spans
import DeclFront.Proofs.Grammar.Unclosed
import Mathlib.Data.List.Nodup

/-!
# Proofs/FailureOrder — failures stand in order, and no token is blamed twice

An attempt that fails blames no terminal in front of the one where it began, and blames that one
only if no declaration can start there (`start_le_of_failed`).  Parsing may go on at the very
terminal that was blamed, but then a declaration can start there, so the next failure blames one
behind it.  This is what `Reported` keeps from turn to turn: the failures are strictly in order, and
each is in front of the terminals that are left, or at the first of them if a declaration can start
there.
-/

namespace DeclFront

open Grammar

/-- The failure blames a token that stands where another was wanted. -/
def Failure.BlamesToken (f : Failure) : Prop := ∃ wanted t, f.cause = .unexpected wanted (some t)

namespace Grammar

variable {stop : Location} {t u : Terminal} {ts rest terminals : List Terminal} {cause : Cause}
  {fs : List Failure} {added : Outcome}

/-! ## What one failure blames -/

/-- The clause of an attribute opens behind the terminal where the attributes begin. -/
theorem opening_mem_of_unclosed {trees : List AttributeTree} {tree : UnclosedAttribute}
    (h : t :: ts = trees.flatMap AttributeTree.yield ++ tree.yield) :
    tree.opening.terminal ∈ ts := by
  rcases trees with _ | ⟨first, others⟩
  · rw [(List.cons.inj h).2]
    exact List.mem_cons_of_mem _ List.mem_cons_self
  · rw [(List.cons.inj h).2]
    have hopening : tree.opening.terminal ∈ tree.yield := by simp [UnclosedAttribute.yield]
    exact List.mem_append_right _ hopening

/-- **A failure blames a terminal that the attempt left, or the end, or a clause in it.** -/
theorem blamed_of_failed (h : (declaration (t :: ts)).reading = .failed cause rest) :
    (∃ wanted u us, rest = u :: us ∧ u ∈ t :: ts ∧ (t.startsDeclaration = true → u ∈ ts) ∧
        cause = .unexpected wanted (some u.token)) ∨
      rest = [] ∧ ((∃ wanted, cause = .unexpected wanted none) ∨
        ∃ u ∈ ts, u.isPunctuator .leftParen = true ∧ cause = .unclosedArguments u.token) := by
  have hsuffix := declaration_rest_suffix (t :: ts)
  rw [h] at hsuffix
  rcases blame_of_declaration h with ⟨wanted, rfl⟩ | ⟨rfl, trees, tree, hts, rfl⟩
  · rcases rest with _ | ⟨u, us⟩
    · exact .inr ⟨rfl, .inl ⟨wanted, rfl⟩⟩
    · refine .inl ⟨wanted, u, us, rfl, hsuffix.subset List.mem_cons_self, fun hstart => ?_, rfl⟩
      have hbehind := declaration_rest_suffix_of_start hstart ts
      rw [h] at hbehind
      exact hbehind.subset List.mem_cons_self
  · exact .inr ⟨rfl, .inr ⟨_, opening_mem_of_unclosed hts, tree.opening.isPunctuator, rfl⟩⟩

/-- **An attempt blames nothing in front of the terminal where it began**, nor that terminal if a
declaration can start there. -/
theorem start_le_of_failed (hterminals : InOrder (t :: ts))
    (hstop : ∀ u ∈ t :: ts, u.range.stop.toPosition ≤ stop.toPosition)
    (hread : (declaration (t :: ts)).reading = .failed cause rest) :
    t.range.start.toPosition ≤ (cause.range stop).start.toPosition ∧
      (t.startsDeclaration = true →
        t.range.start.toPosition < (cause.range stop).start.toPosition) := by
  rcases blamed_of_failed hread with
    ⟨wanted, u, us, -, hu, hbehind, rfl⟩ | ⟨-, ⟨wanted, rfl⟩ | ⟨u, hu, -, rfl⟩⟩
  · exact ⟨hterminals.start_le_of_mem hu, fun hstart =>
      hterminals.start_lt_of_mem (hbehind hstart)⟩
  · have hlt := (hterminals.start_lt_stop t List.mem_cons_self).trans_le
      (hstop t List.mem_cons_self)
    exact ⟨hlt.le, fun _ => hlt⟩
  · have hlt := hterminals.start_lt_of_mem hu
    exact ⟨hlt.le, fun _ => hlt⟩

/-- **Where parsing goes on is not in front of what was blamed**, and a declaration can start
there. -/
theorem le_start_of_resume (stop : Location) (hterminals : InOrder (t :: ts))
    (hread : (declaration (t :: ts)).reading = .failed cause rest)
    (hu : u ∈ (resume ts rest).head?) :
    (Failure.ofCause stop cause).BlamesToken ∧ u.startsDeclaration = true ∧
      (cause.range stop).start.toPosition ≤ u.range.start.toPosition := by
  have hsuffix := declaration_rest_suffix (t :: ts)
  rw [hread] at hsuffix
  have hmem : u ∈ rest := (resume_suffix_rest hsuffix).subset (List.mem_of_mem_head? hu)
  obtain ⟨_, -, hresumed, -⟩ := resume_resumesAt hsuffix
  rcases blamed_of_failed hread with ⟨wanted, v, vs, rfl, -, -, rfl⟩ | ⟨rfl, -⟩
  · refine ⟨⟨wanted, v.token, rfl⟩, (hresumed u hu).1, ?_⟩
    exact (hterminals.sublist hsuffix.sublist).start_le_of_mem hmem
  · cases hmem

/-! ## The failures of a run -/

/-- Failures in order, in front of the terminals that are left. -/
structure Reported (fs : List Failure) (rest : List Terminal) : Prop where
  starts_lt : fs.Pairwise fun f g => f.range.start.toPosition < g.range.start.toPosition
  /-- Parsing goes on behind what was blamed, or there if a declaration can start there. -/
  before : ∀ t ∈ rest.head?, ∀ f ∈ fs, f.BlamesToken ∧
    f.range.start.toPosition ≤ t.range.start.toPosition ∧
      (t.startsDeclaration = false → f.range.start.toPosition < t.range.start.toPosition)
  /-- A failure with another behind it blames a token. -/
  blamesToken : ∀ f ∈ fs.dropLast, f.BlamesToken

namespace Reported

theorem nil (rest : List Terminal) : Reported [] rest :=
  ⟨List.Pairwise.nil, fun _ _ => List.forall_mem_nil _, List.forall_mem_nil _⟩

/-- Terminals are passed over without a failure. -/
theorem pass (h : Reported fs (t :: ts)) (hterminals : InOrder (t :: ts)) (hrest : rest <:+ ts) :
    Reported fs rest where
  starts_lt := h.starts_lt
  before u hu f hf := by
    obtain ⟨htoken, hle, -⟩ := h.before t rfl f hf
    have hlt := hle.trans_lt (hterminals.start_lt_of_mem (hrest.subset (List.mem_of_mem_head? hu)))
    exact ⟨htoken, hlt.le, fun _ => hlt⟩
  blamesToken := h.blamesToken

/-- **One more failure stands in order behind the others.** -/
theorem fail (h : Reported fs (t :: ts)) (hterminals : InOrder (t :: ts))
    (hstop : ∀ u ∈ t :: ts, u.range.stop.toPosition ≤ stop.toPosition)
    (hread : (declaration (t :: ts)).reading = .failed cause rest) :
    Reported (fs ++ [.ofCause stop cause]) (resume ts rest) where
  starts_lt := by
    refine List.pairwise_append.2 ⟨h.starts_lt, List.pairwise_singleton _ _, ?_⟩
    rintro f hf g hg
    obtain rfl := List.mem_singleton.1 hg
    obtain ⟨-, hle, hlt⟩ := h.before t rfl f hf
    obtain ⟨hattempt, hbehind⟩ := start_le_of_failed hterminals hstop hread
    -- Either the terminal of the attempt is behind the one blamed before, or it is not blamed now.
    cases hstart : t.startsDeclaration with
    | true => exact hle.trans_lt (hbehind hstart)
    | false => exact (hlt hstart).trans_le hattempt
  before u hu f hf := by
    obtain ⟨htoken, hstart, hresume⟩ := le_start_of_resume stop hterminals hread hu
    refine ⟨?_, ?_, fun hfalse => absurd (hstart.symm.trans hfalse) (by decide)⟩
    · rcases List.mem_append.1 hf with hf | hf
      · exact (h.before t rfl f hf).1
      · obtain rfl := List.mem_singleton.1 hf
        exact htoken
    · rcases List.mem_append.1 hf with hf | hf
      · exact ((h.before t rfl f hf).2.1.trans
          (start_le_of_failed hterminals hstop hread).1).trans hresume
      · obtain rfl := List.mem_singleton.1 hf
        exact hresume
  blamesToken f hf := by
    rw [List.dropLast_concat] at hf
    exact (h.before t rfl f hf).1

end Reported

/-- **In every state of the loop the failures are in order.** -/
theorem Reaches.reported (h : Reaches stop terminals added rest) (hterminals : InOrder terminals)
    (hstop : ∀ u ∈ terminals, u.range.stop.toPosition ≤ stop.toPosition) :
    Reported added.failures rest := by
  induction h with
  | start => exact .nil terminals
  | @next added t ts h ih =>
    have hinOrder := hterminals.sublist h.suffix.sublist
    have hrest := turn_rest_suffix stop t ts
    rcases turn_cases stop t ts with
      ⟨-, hturn⟩ | ⟨-, ⟨d, rest, -, hturn⟩ | ⟨cause, rest, hread, hturn⟩⟩
    · rw [hturn] at hrest ⊢
      rw [Outcome.followedBy_empty]
      exact ih.pass hinOrder hrest
    · rw [hturn] at hrest ⊢
      simp only [Outcome.followedBy, List.append_nil]
      exact ih.pass hinOrder hrest
    · rw [hturn]
      exact ih.fail hinOrder (fun u hu => hstop u (h.suffix.subset hu)) hread

end Grammar

namespace TokenStream

/-- What the failure blames stands in the stream, and its message says so: a significant token, the
end behind the last token, or the parenthesis that opens a clause without an end. -/
def Blames (s : TokenStream) (f : Failure) : Prop :=
  match f.cause with
  | .unexpected wanted (some t) =>
    t ∈ s.significant ∧ f.range = t.range ∧ (∀ u ∈ s.significant, u.range = f.range → u = t) ∧
      f.message = "Expected " ++ wanted.text ++ ", found " ++ t.kind.description
  | .unexpected wanted none =>
    (∃ last ∈ s.tokens.getLast?, f.range = .empty last.range.stop) ∧
      f.message = "Expected " ++ wanted.text ++ ", found end of file"
  | .unclosedArguments opening =>
    opening ∈ s.significant ∧ opening.kind = .punctuator .leftParen ∧ f.range = opening.range ∧
      f.message = "Expected ')' to close attribute arguments"

/-- The failures of the parse stand in the order of what they blame. -/
structure FailsInOrder (s : TokenStream) : Prop where
  starts_lt : s.parse.failures.Pairwise fun f g =>
    f.range.start.toPosition < g.range.start.toPosition
  /-- No token is blamed twice. -/
  nodup_range : (s.parse.failures.map Failure.range).Nodup
  blames : ∀ f ∈ s.parse.failures, s.Blames f
  /-- Only the last failure may blame the end or a clause. -/
  blamesToken : ∀ f ∈ s.parse.failures.dropLast, f.BlamesToken

/-- A token of a text is told by its range. -/
theorem eq_of_range_eq_of_ofText {path text : String} {t u : Token}
    (ht : t ∈ (ofText path text).significant) (hu : u ∈ (ofText path text).significant)
    (h : t.range = u.range) : t = u := by
  have hpairwise : (ofText path text).tokens.Pairwise fun t u => t.range ≠ u.range := by
    refine (Token.pairwise_precedes_ofText path .first text.toList).imp_of_mem ?_
    intro t u ht hu hprecedes heq
    have hforward := Token.start_lt_stop_of_mem_ofText ht
    rw [Range.Precedes, ← heq] at hprecedes
    exact absurd hforward (not_lt.2 hprecedes)
  exact List.inj_on_of_nodup_map (List.pairwise_map.2 hpairwise) (List.mem_filter.1 ht).1
    (List.mem_filter.1 hu).1 h

/-- **Every failure of a parse blames what its message names.** -/
theorem blames_of_mem_failures {path text : String} {f : Failure}
    (hf : f ∈ (ofText path text).parse.failures) : (ofText path text).Blames f := by
  obtain ⟨added, t, ts, cause, rest, hreaches, hread, rfl⟩ := exists_failed_of_mem_failures hf
  have hsuffix := hreaches.suffix
  have hmem {u : Terminal} (hu : u ∈ t :: ts) : u.token ∈ (ofText path text).significant := by
    rw [significant, ← Terminal.map_token_ofTokens]
    exact List.mem_map_of_mem (hsuffix.subset hu)
  rcases blamed_of_failed hread with
    ⟨wanted, u, us, -, hu, -, rfl⟩ | ⟨-, ⟨wanted, rfl⟩ | ⟨u, hu, hparen, rfl⟩⟩
  · exact ⟨hmem hu, rfl, fun v hv hrange => eq_of_range_eq_of_ofText hv (hmem hu) hrange, rfl⟩
  · obtain ⟨last, hlast, hstop⟩ := exists_stop_eq (s := ofText path text)
      (List.ne_nil_of_mem (hsuffix.subset List.mem_cons_self))
    exact ⟨⟨last, hlast, congrArg Range.empty hstop⟩, rfl⟩
  · let opening : Mark .leftParen := ⟨u, hparen⟩
    exact ⟨hmem (List.mem_cons_of_mem t hu), opening.kind_eq, rfl, rfl⟩

/-- **The failures of every text stand in order**, each at what it blames, and no token is blamed
twice. -/
theorem failsInOrder_ofText (path text : String) : (ofText path text).FailsInOrder := by
  have hstop : ∀ u ∈ Terminal.ofTokens (ofText path text).tokens,
      u.range.stop.toPosition ≤ (ofText path text).stop.toPosition := fun u hu =>
    stop_le_stop_of_mem_ofText (Terminal.token_mem_of_mem_ofTokens hu)
  have hreported : Reported (ofText path text).parse.failures [] :=
    (Reaches.ends _ _).reported (inOrder_ofText path .first text.toList) hstop
  refine ⟨hreported.starts_lt, ?_, fun f => blames_of_mem_failures, hreported.blamesToken⟩
  refine List.pairwise_map.2 (hreported.starts_lt.imp fun {f g} hlt heq => ?_)
  rw [heq] at hlt
  exact lt_irrefl _ hlt

end TokenStream

end DeclFront
