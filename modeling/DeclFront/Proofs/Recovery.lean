import DeclFront.Proofs.Grammar.Language
import DeclFront.Proofs.Grammar.Leading
import DeclFront.Proofs.Grammar.Resumption
import Mathlib.Data.List.Chain

/-!
# Proofs/Recovery — litter between declarations

*Litter* is a stretch of tokens of which none can start a declaration and whose braces nest.  Where
litter stands between declarations, the parser fails at its first significant token and goes on at
the next declaration: the count of braces with which it looks for one comes to zero over litter, or
to less if the first token was an opening brace that it did not count.  So litter takes nothing away
and adds one failure (`parse_of_litter`).

Two stretches of litter side by side would be one, a semicolon in front of litter would belong to
the declarations, and a point to an import; the rest is up to the litter.
-/

namespace DeclFront

open Grammar

namespace Grammar

variable {t : Terminal} {ts rest : List Terminal} {stop : Location} {depth : Int}

/-! ## Looking for a start -/

/-- Over terminals that can start no declaration the skip loop counts braces. -/
theorem nextStart_append (h : ∀ t ∈ ts, t.startsDeclaration = false) (rest : List Terminal) :
    nextStart depth (ts ++ rest) = nextStart (depth + braceBalance ts) rest := by
  induction ts generalizing depth with
  | nil => rw [List.nil_append, braceBalance_nil, Int.add_zero]
  | cons t ts ih =>
    have hts := fun u hu => h u (List.mem_cons_of_mem t hu)
    rw [List.cons_append, nextStart, braceBalance, ← Int.add_assoc, h t List.mem_cons_self,
      Bool.and_false, if_neg Bool.false_ne_true, ih hts, ih hts, ih hts]
    split
    · rfl
    · split
      · rfl
      · rw [Int.add_zero]

/-- The skip loop stops at a start, unless more braces have opened than closed. -/
theorem nextStart_of_start (h : t.startsDeclaration = true) (hdepth : depth ≤ 0) :
    nextStart depth (t :: ts) = t :: ts := by
  have hbrace {p : Punctuator} (hp : p ≠ .atSign) : ¬ t.isPunctuator p = true := fun htp => by
    rw [not_startsDeclaration_of_isPunctuator htp hp] at h
    cases h
  rw [nextStart, if_neg (hbrace (by decide)), if_neg (hbrace (by decide)), if_pos]
  simp [hdepth, h]

/-- The parser does not see the trivia in front of where it looks for a start. -/
theorem declarations_nextStart_addLeading (trivia : List Token) (ts : List Terminal) :
    declarations stop (nextStart depth (Terminal.addLeading trivia ts)) =
      declarations stop (nextStart depth ts) := by
  rcases ts with _ | ⟨⟨leading, token⟩, ts⟩
  · rfl
  rw [Terminal.addLeading]
  by_cases hopen : token.kind.isPunctuator .leftBrace = true
  · have hopen' (l : List Token) : Terminal.isPunctuator .leftBrace ⟨l, token⟩ = true := hopen
    rw [nextStart, nextStart, if_pos (hopen' _), if_pos (hopen' _)]
  have hopen' (l : List Token) : ¬ Terminal.isPunctuator .leftBrace ⟨l, token⟩ = true := hopen
  by_cases hclose : token.kind.isPunctuator .rightBrace = true
  · have hclose' (l : List Token) : Terminal.isPunctuator .rightBrace ⟨l, token⟩ = true := hclose
    rw [nextStart, nextStart, if_neg (hopen' _), if_pos (hclose' _), if_neg (hopen' _),
      if_pos (hclose' _)]
  have hclose' (l : List Token) : ¬ Terminal.isPunctuator .rightBrace ⟨l, token⟩ = true := hclose
  rw [nextStart, nextStart, if_neg (hopen' _), if_neg (hclose' _), if_neg (hopen' _),
    if_neg (hclose' _)]
  by_cases hstart : (depth ≤ 0 && Terminal.startsDeclaration ⟨leading, token⟩) = true
  · have hstart' (l : List Token) :
        (depth ≤ 0 && Terminal.startsDeclaration ⟨l, token⟩) = true := hstart
    rw [if_pos (hstart' _), if_pos (hstart' _)]
    exact declarations_addLeading trivia (⟨leading, token⟩ :: ts)
  · have hstart' (l : List Token) :
        ¬ (depth ≤ 0 && Terminal.startsDeclaration ⟨l, token⟩) = true := hstart
    rw [if_neg (hstart' _), if_neg (hstart' _)]

/-- Every declaration begins with a terminal that can start one. -/
theorem DeclarationTree.exists_start (tree : DeclarationTree) :
    ∃ t ts, tree.yield = t :: ts ∧ t.startsDeclaration = true := by
  obtain ⟨_ | ⟨first, others⟩, _ | modifier, body⟩ := tree
  · rcases body with tree | tree
    · exact ⟨_, _, rfl, by simp [Terminal.startsDeclaration, tree.keyword.isKeyword]⟩
    · exact ⟨_, _, rfl, by simp [Terminal.startsDeclaration, tree.keyword.isKeyword]⟩
  · exact ⟨_, _, rfl, by simp [Terminal.startsDeclaration, modifier.keyword.accessLevel?_eq]⟩
  · exact ⟨_, _, rfl, by simp [Terminal.startsDeclaration, first.sign.isPunctuator]⟩
  · exact ⟨_, _, rfl, by simp [Terminal.startsDeclaration, first.sign.isPunctuator]⟩

/-- Looking for a start passes over nothing but semicolons in front of a declaration. -/
theorem declarations_nextStart_yield {sentence : Sentence} (h : sentence.trees ≠ [])
    (hdepth : depth ≤ 0) :
    declarations stop (nextStart depth (sentence.yield ++ rest)) =
      declarations stop (sentence.yield ++ rest) := by
  induction sentence with
  | nil => exact absurd rfl h
  | cons item sentence ih =>
    rw [Sentence.yield_cons, List.append_assoc]
    rcases item with tree | mark
    · obtain ⟨t, ts, hyield, hstart⟩ := tree.exists_start
      rw [ItemTree.yield, hyield, List.cons_append, nextStart_of_start hstart hdepth]
    · have hstray : ∀ t ∈ [mark.terminal], t.startsDeclaration = false := by
        rintro t (_ | ⟨_, ⟨⟩⟩)
        exact not_startsDeclaration_of_isPunctuator mark.isPunctuator (by decide)
      have hbalance : braceBalance [mark.terminal] = 0 := by
        rw [braceBalance, isPunctuator_of_ne mark.isPunctuator (by decide),
          isPunctuator_of_ne mark.isPunctuator (by decide)]
        rfl
      rw [ItemTree.yield, nextStart_append hstray, hbalance, Int.add_zero, ih h]
      exact (declarations_of_semicolon mark.isPunctuator).symm

/-- No brace closes but one opened before it, and none stays open. -/
structure BracesNest (terminals : List Terminal) : Prop where
  nonneg : ∀ front, front <+: terminals → 0 ≤ braceBalance front
  balance_eq : braceBalance terminals = 0

/-- Behind the first terminal no more braces open than close. -/
theorem BracesNest.balance_nonpos (h : BracesNest (t :: ts)) : braceBalance ts ≤ 0 := by
  have hfirst := h.nonneg [t] ⟨ts, rfl⟩
  have htotal := h.balance_eq
  have happend := braceBalance_append [t] ts
  rw [List.singleton_append] at happend
  omega

theorem begins_addLeading_iff (trivia : List Token) {p : Punctuator} :
    Begins (·.isPunctuator p) (Terminal.addLeading trivia ts) ↔ Begins (·.isPunctuator p) ts := by
  rcases ts with _ | ⟨t, ts⟩
  · rfl
  · rw [Terminal.addLeading, begins_cons_iff, begins_cons_iff]
    rfl

end Grammar

/-! ## Litter and passages -/

/-- Tokens of which none can start a declaration, with nested braces, and no semicolon in front. -/
structure Litter where
  tokens : List Token
  first : Terminal
  others : List Terminal
  ofTokens_eq : Terminal.ofTokens tokens = first :: others
  isSemicolon_eq : first.isPunctuator .semicolon = false
  startsDeclaration_eq : ∀ t ∈ first :: others, t.startsDeclaration = false
  nests : BracesNest (first :: others)

namespace Litter

/-- What the parser says about litter. -/
def failure (litter : Litter) : Failure :=
  ⟨.unexpected .declaration (some litter.first.token), litter.first.range⟩

/-- The failure of litter names the first token of it. -/
theorem message_failure (litter : Litter) :
    litter.failure.message =
      "Expected declaration, found " ++ litter.first.token.kind.description := rfl

end Litter

/-- Tokens that a sentence with a declaration derives. -/
structure Passage where
  tokens : List Token
  sentence : Sentence
  derives : sentence.Derives tokens
  trees_ne_nil : sentence.trees ≠ []

/-- A stretch of a token stream. -/
inductive Segment where
  | passage (passage : Passage)
  | litter (litter : Litter)

namespace Segment

/-- The tokens that a segment is made of. -/
def tokens : Segment → List Token
  | passage p => p.tokens
  | litter l => l.tokens

/-- The segment is a passage, not litter. -/
def isPassage : Segment → Bool
  | passage _ => true
  | litter _ => false

/-- The litter that a segment is. -/
def litter? : Segment → Option Litter
  | passage _ => none
  | litter l => some l

/-- The declarations that a segment gives. -/
def declarations : Segment → List Declaration
  | passage p => p.sentence.declarations
  | litter _ => []

/-- The diagnostics that a segment gives. -/
def diagnostics : Segment → List Diagnostic
  | passage p => p.sentence.diagnostics
  | litter _ => []

/-- Litter stands between passages, and does not continue an import in front of it. -/
def MayPrecede : Segment → Segment → Prop
  | _, passage _ => True
  | passage p, litter l => p.sentence.EndsBefore (l.first :: l.others)
  | litter _, litter _ => False

/-- What segments give, in order. -/
def outcome (segments : List Segment) : Outcome :=
  ⟨⟨segments.flatMap declarations⟩, ⟨segments.flatMap diagnostics⟩,
    (segments.filterMap litter?).map Litter.failure⟩

/-- Without litter there are no failures, and the rest is the same. -/
theorem outcome_filter_isPassage (segments : List Segment) :
    outcome (segments.filter isPassage) =
      ⟨(outcome segments).tree, (outcome segments).diagnostics, []⟩ := by
  induction segments with
  | nil => rfl
  | cons segment segments ih =>
    simp only [outcome, Outcome.mk.injEq, SyntaxTree.mk.injEq, DiagnosticPool.mk.injEq] at ih ⊢
    obtain ⟨hdeclarations, hdiagnostics, hfailures⟩ := ih
    rcases segment with p | l
    · exact ⟨congrArg (p.sentence.declarations ++ ·) hdeclarations,
        congrArg (p.sentence.diagnostics ++ ·) hdiagnostics, hfailures⟩
    · exact ⟨hdeclarations, hdiagnostics, hfailures⟩

/-- Passages may stand side by side. -/
theorem isChain_filter_isPassage (segments : List Segment) :
    (segments.filter isPassage).IsChain MayPrecede := by
  refine (List.pairwise_of_forall_mem_list fun s _ t ht => ?_).isChain
  rcases t with p | l
  · exact trivial
  · exact absurd (List.mem_filter.1 ht).2 Bool.false_ne_true

end Segment

/-! ## Parsing -/

/-- What follows a passage does not continue it. -/
theorem Passage.endsBefore (p : Passage) {segments : List Segment}
    (h : ∀ next ∈ segments.head?, Segment.MayPrecede (.passage p) next) :
    p.sentence.EndsBefore (Terminal.ofTokens (segments.flatMap Segment.tokens)) := by
  rcases segments with _ | ⟨q | l, segments⟩
  · exact fun tree _ => tree.body.endsBefore_of_not_begins (not_begins_nil _)
  · obtain ⟨trivia, hterminals⟩ :=
      Terminal.exists_ofTokens_append q.tokens (segments.flatMap Segment.tokens)
    rw [List.flatMap_cons, Segment.tokens, hterminals, ← Sentence.derives_iff.1 q.derives]
    obtain ⟨_ | ⟨item, sentence⟩, hq⟩ : ∃ sentence, q.sentence = sentence := ⟨_, rfl⟩
    · exact absurd (congrArg Sentence.trees hq) q.trees_ne_nil
    · rw [hq, Sentence.yield_cons, List.append_assoc]
      exact fun tree _ => tree.body.endsBefore_of_not_begins (item.not_begins_period _)
  · obtain ⟨trivia, hterminals⟩ :=
      Terminal.exists_ofTokens_append l.tokens (segments.flatMap Segment.tokens)
    rw [List.flatMap_cons, Segment.tokens, hterminals, l.ofTokens_eq]
    exact Sentence.EndsBefore.congr (fun hbegins => begins_cons_iff.2 (begins_cons_iff.1 hbegins))
      (h _ rfl)

/-- Behind litter the parser looks for the next passage, and finds it. -/
theorem Litter.declarations_nextStart (l : Litter) (stop : Location) {segments : List Segment}
    (h : ∀ next ∈ segments.head?, Segment.MayPrecede (.litter l) next) :
    Grammar.declarations stop (nextStart (braceBalance l.others)
        (Terminal.ofTokens (segments.flatMap Segment.tokens))) =
      Grammar.declarations stop (Terminal.ofTokens (segments.flatMap Segment.tokens)) := by
  rcases segments with _ | ⟨q | l', segments⟩
  · rfl
  · obtain ⟨trivia, hterminals⟩ :=
      Terminal.exists_ofTokens_append q.tokens (segments.flatMap Segment.tokens)
    rw [List.flatMap_cons, Segment.tokens, hterminals, ← Sentence.derives_iff.1 q.derives]
    exact declarations_nextStart_yield q.trees_ne_nil l.nests.balance_nonpos
  · exact absurd (h _ rfl) id

/-- **Passages and litter are parsed one by one.** -/
theorem declarations_segments (stop : Location) {segments : List Segment}
    (h : segments.IsChain Segment.MayPrecede) :
    Grammar.declarations stop (Terminal.ofTokens (segments.flatMap Segment.tokens)) =
      Segment.outcome segments := by
  induction segments with
  | nil =>
    rw [List.flatMap_nil, Terminal.ofTokens_trivia (List.forall_mem_nil _), Grammar.declarations]
    rfl
  | cons segment segments ih =>
    obtain ⟨hnext, hsegments⟩ := List.isChain_cons.1 h
    obtain ⟨trivia, hterminals⟩ :=
      Terminal.exists_ofTokens_append segment.tokens (segments.flatMap Segment.tokens)
    rw [List.flatMap_cons, hterminals]
    rcases segment with p | l
    · have hends := (p.endsBefore hnext).congr (begins_addLeading_iff trivia).1
      rw [Segment.tokens, ← Sentence.derives_iff.1 p.derives,
        declarations_yield_append_of_endsBefore _ hends, declarations_addLeading, ih hsegments]
      rfl
    · rw [Segment.tokens, l.ofTokens_eq, List.cons_append,
        declarations_of_stray l.isSemicolon_eq (l.startsDeclaration_eq _ List.mem_cons_self),
        nextStart_append fun t ht => l.startsDeclaration_eq t (List.mem_cons_of_mem _ ht),
        Int.zero_add, declarations_nextStart_addLeading, l.declarations_nextStart stop hnext,
        ih hsegments]
      rfl

namespace TokenStream

/-- **Litter takes no declaration away and is blamed once**: with litter in it, a stream gives the
declarations and the diagnostics that it gives without, where it parses without a failure, and one
failure for each litter, in order, at the first significant token. -/
theorem parse_of_litter {s : TokenStream} {segments : List Segment}
    (h : segments.IsChain Segment.MayPrecede) (hs : s.tokens = segments.flatMap Segment.tokens) :
    let clean : TokenStream := ⟨s.path, (segments.filter Segment.isPassage).flatMap Segment.tokens⟩
    clean.parse.isSuccess = true ∧
      s.parse.tree.declarations = segments.flatMap Segment.declarations ∧
      s.parse.tree = clean.parse.tree ∧ s.parse.diagnostics = clean.parse.diagnostics ∧
      s.parse.failures = (segments.filterMap Segment.litter?).map Litter.failure ∧
      s.parse.failures.map Failure.message = (segments.filterMap Segment.litter?).map fun l =>
        "Expected declaration, found " ++ l.first.token.kind.description := by
  intro clean
  have hparse : s.parse = Segment.outcome segments := by
    rw [parse, hs]
    exact declarations_segments s.stop h
  have hclean : clean.parse = Segment.outcome (segments.filter Segment.isPassage) :=
    declarations_segments clean.stop (Segment.isChain_filter_isPassage segments)
  rw [hparse, hclean, Segment.outcome_filter_isPassage]
  refine ⟨rfl, rfl, rfl, rfl, rfl, ?_⟩
  rw [Segment.outcome, List.map_map]
  exact List.map_congr_left fun l _ => l.message_failure

/-- The litter in `x import a`. -/
def strayName : Litter where
  tokens := [onFirstLine (.identifier "x") 1 2]
  first := ⟨[], onFirstLine (.identifier "x") 1 2⟩
  others := []
  ofTokens_eq := rfl
  isSemicolon_eq := rfl
  startsDeclaration_eq := by
    rintro t (_ | ⟨_, ⟨⟩⟩)
    rfl
  nests := by
    refine ⟨fun front hfront => ?_, rfl⟩
    rcases front with _ | ⟨t, front⟩
    · exact Int.le_refl 0
    · obtain ⟨rfl, hnil⟩ := List.cons_prefix_cons.1 hfront
      rw [List.prefix_nil.1 hnil]
      exact Int.le_refl 0

/-- The passage in `x import a`. -/
def importBehind : Passage where
  tokens := [onFirstLine (.control .space) 2 3,
    onFirstLine (.keyword ⟨"import", .declaration⟩) 3 9, onFirstLine (.control .space) 9 10,
    onFirstLine (.identifier "a") 10 11]
  sentence :=
    [.declaration ⟨[], none, .importing
      ⟨⟨⟨[onFirstLine (.control .space) 2 3],
          onFirstLine (.keyword ⟨"import", .declaration⟩) 3 9⟩, rfl⟩,
        ⟨⟨⟨[onFirstLine (.control .space) 9 10], onFirstLine (.identifier "a") 10 11⟩, "a", rfl⟩,
          []⟩⟩⟩]
  derives := by
    rw [Sentence.derives_iff]
    rfl
  trees_ne_nil := List.cons_ne_nil _ _

/-- A stray name in front of an import costs one failure. -/
theorem parse_strayName :
    [.litter strayName, .passage importBehind].IsChain Segment.MayPrecede ∧
      (ofText "p" "x import a").tokens =
        [.litter strayName, .passage importBehind].flatMap Segment.tokens ∧
      (ofText "p" "x import a").parse.tree.declarations = importBehind.sentence.declarations ∧
      (ofText "p" "x import a").parse.failures = [strayName.failure] := by
  have hchain : [.litter strayName, .passage importBehind].IsChain Segment.MayPrecede :=
    List.IsChain.cons_cons trivial (List.IsChain.singleton _)
  have htokens : (ofText "p" "x import a").tokens =
      [.litter strayName, .passage importBehind].flatMap Segment.tokens := by decide +kernel
  obtain ⟨-, hdeclarations, -, -, hfailures, -⟩ := parse_of_litter hchain htokens
  exact ⟨hchain, htokens, hdeclarations, hfailures⟩

end TokenStream

end DeclFront
