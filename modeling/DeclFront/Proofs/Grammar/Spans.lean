import DeclFront.Proofs.Grammar.Derivation
import DeclFront.Proofs.Grammar.Terminals
import DeclFront.Proofs.Tiling

/-!
# Proofs/Grammar/Spans — spans of terminals that stand in order

The terminals of a text are *in order*: each ends behind its start, and none starts before those in
front of it have ended.  So a span reaches from its first terminal forward to its last, encloses the
spans of all that it is made of (`InOrder.encloses_span`) and precedes the spans behind it
(`InOrder.precedes_span`).  `InOrder.holdsInOrder` says so of any number of parts at once.
-/

namespace DeclFront.Grammar

variable {t : Terminal} {ts us front back : List Terminal}

/-- Every terminal ends behind its start, and none starts before those in front of it have
ended. -/
structure InOrder (terminals : List Terminal) : Prop where
  start_lt_stop : ∀ t ∈ terminals, t.range.start.toPosition < t.range.stop.toPosition
  pairwise : terminals.Pairwise fun t u => t.range.Precedes u.range

/-- **The terminals of a text are in order.** -/
theorem inOrder_ofText (path : String) (p : Position) (text : List Char) :
    InOrder (Terminal.ofTokens (Token.ofText path p text)) where
  start_lt_stop _ ht := Token.start_lt_stop_of_mem_ofText (Terminal.token_mem_of_mem_ofTokens ht)
  pairwise := by
    have htokens := (Token.pairwise_precedes_ofText path p text).filter (!·.isTrivia)
    rw [← Terminal.map_token_ofTokens, List.pairwise_map] at htokens
    exact htokens

namespace InOrder

/-- Terminals picked out of some in order are in order. -/
theorem sublist (h : InOrder ts) (hus : us.Sublist ts) : InOrder us :=
  ⟨fun t ht => h.start_lt_stop t (hus.subset ht), h.pairwise.sublist hus⟩

/-- A terminal behind the first starts behind it. -/
theorem start_lt_of_mem {u : Terminal} (h : InOrder (t :: ts)) (hu : u ∈ ts) :
    t.range.start.toPosition < u.range.start.toPosition :=
  (h.start_lt_stop t List.mem_cons_self).trans_le ((List.pairwise_cons.1 h.pairwise).1 u hu)

/-- No terminal starts before the first. -/
theorem start_le_of_mem {u : Terminal} (h : InOrder (t :: ts)) (hu : u ∈ t :: ts) :
    t.range.start.toPosition ≤ u.range.start.toPosition := by
  rcases List.mem_cons.1 hu with rfl | hu
  · exact le_rfl
  · exact (h.start_lt_of_mem hu).le

/-- The first terminal starts before any other, and the last ends behind any other. -/
theorem encloses_of_mem (h : InOrder ts) (hts : ts ≠ []) (ht : t ∈ ts) :
    (span ts hts).Encloses t.range := by
  have hle {u : Terminal} (hu : u ∈ ts) : u.range.start.toPosition ≤ u.range.stop.toPosition :=
    (h.start_lt_stop u hu).le
  constructor
  · rcases ts with _ | ⟨first, others⟩
    · cases ht
    · exact h.start_le_of_mem ht
  · have hsplit := List.dropLast_append_getLast hts
    rcases List.mem_append.1 (hsplit ▸ ht) with hfront | hlast
    · have hpairwise := h.pairwise
      rw [← hsplit] at hpairwise
      exact ((List.pairwise_append.1 hpairwise).2.2 t hfront _ (List.mem_singleton_self _)).trans
        (hle (List.getLast_mem hts))
    · rw [List.mem_singleton.1 hlast]
      exact le_rfl

/-- A span is not empty. -/
theorem start_lt_stop_span (h : InOrder ts) (hts : ts ≠ []) :
    (span ts hts).start.toPosition < (span ts hts).stop.toPosition :=
  (h.start_lt_stop _ (List.head_mem hts)).trans_le (h.encloses_of_mem hts (List.head_mem hts)).2

/-- **A span encloses the span of any part of it.** -/
theorem encloses_span (h : InOrder ts) (hts : ts ≠ []) (hsub : us.Sublist ts) (hus : us ≠ []) :
    (span ts hts).Encloses (span us hus) :=
  ⟨(h.encloses_of_mem hts (hsub.subset (List.head_mem hus))).1,
    (h.encloses_of_mem hts (hsub.subset (List.getLast_mem hus))).2⟩

/-- **A span precedes the spans behind it.** -/
theorem precedes_span (h : InOrder (front ++ back)) (hfront : front ≠ []) (hback : back ≠ []) :
    (span front hfront).Precedes (span back hback) :=
  (List.pairwise_append.1 h.pairwise).2.2 _ (List.getLast_mem hfront) _ (List.head_mem hback)

/-- **A span encloses the terminals that it is made of**, and no others. -/
theorem filter_encloses_span (h : InOrder (front ++ (us ++ back))) (hus : us ≠ []) :
    (front ++ (us ++ back)).filter ((span us hus).Encloses ·.range) = us := by
  obtain ⟨-, hmiddle, hfront⟩ := List.pairwise_append.1 h.pairwise
  obtain ⟨-, -, hback⟩ := List.pairwise_append.1 hmiddle
  have hpart : InOrder us :=
    h.sublist ((List.sublist_append_left us back).trans (List.sublist_append_right front _))
  have hinside : ∀ t ∈ us, (span us hus).Encloses t.range := fun t ht =>
    hpart.encloses_of_mem hus ht
  have hbefore : ∀ t ∈ front, ¬ (span us hus).Encloses t.range := fun t ht =>
    Range.not_encloses_of_precedes (h.start_lt_stop t (List.mem_append_left _ ht))
      (.inr (hfront t ht _ (List.mem_append_left _ (List.head_mem hus))))
  have hbehind : ∀ t ∈ back, ¬ (span us hus).Encloses t.range := fun t ht =>
    Range.not_encloses_of_precedes
      (h.start_lt_stop t (List.mem_append_right _ (List.mem_append_right _ ht)))
      (.inl (hback _ (List.getLast_mem hus) t ht))
  rw [List.filter_append, List.filter_append, List.filter_eq_nil_iff.2 (by simpa using hbefore),
    List.filter_eq_self.2 (by simpa using hinside),
    List.filter_eq_nil_iff.2 (by simpa using hbehind), List.nil_append, List.append_nil]

/-- **The parts of a span lie inside it in order**, if they stand one behind the other. -/
theorem holdsInOrder (h : InOrder ts) (hts : ts ≠ [])
    (parts : List { us : List Terminal // us ≠ [] }) (hparts : (parts.flatMap (·.1)).Sublist ts) :
    (span ts hts).HoldsInOrder (parts.map fun part => span part.1 part.2) := by
  have hmem {part : { us : List Terminal // us ≠ [] }}
      {parts : List { us : List Terminal // us ≠ [] }} (hpart : part ∈ parts) :
      part.1.Sublist (parts.flatMap (·.1)) := by
    rw [List.flatMap_def]
    exact List.sublist_flatten_of_mem (List.mem_map_of_mem hpart)
  refine ⟨List.forall_mem_map.2 fun part hpart => ?_, List.pairwise_map.2 ?_⟩
  · exact h.encloses_span hts ((hmem hpart).trans hparts) part.2
  · induction parts with
    | nil => exact List.Pairwise.nil
    | cons part parts ih =>
      rw [List.flatMap_cons] at hparts
      have hothers := ih ((List.sublist_append_right _ _).trans hparts)
      refine List.pairwise_cons.2 ⟨fun other hother => ?_, hothers⟩
      have hboth : (part.1 ++ other.1).Sublist ts :=
        ((List.append_sublist_append_left _).2 (hmem hother)).trans hparts
      exact (h.sublist hboth).precedes_span part.2 other.2

end InOrder

end DeclFront.Grammar
