import DeclFront.Grammar.Outcome
import DeclFront.Proofs.Grammar.Suffix
import Mathlib.Data.List.Basic
import Mathlib.Tactic.ByContra
import Mathlib.Tactic.Push

/-!
# Proofs/Grammar/Resumption — where parsing goes on after a failure

A failed declaration is to be left at the first terminal that can start another and that does not
stand inside braces opened since the failure (`IsResumption`).  The parser keeps one signed count of
braces, which comes to the same as long as no brace closes but one opened since the failure; a
closing brace of the failed declaration lets a later opening brace pass unseen.  A terminal that is
passed over by force is not counted either.

`braceBalance_pos` is the half that always holds: where the count is positive, a brace is open.  So
the parser never goes on later than it should, and it goes on at the right place exactly when the
place where it goes on is not inside braces (`isResumption_resume_iff`).
-/

namespace DeclFront.Grammar

variable {t : Terminal} {ts rest : List Terminal}

/-! ## Braces -/

/-- Opening braces less closing ones. -/
def braceBalance : List Terminal → Int
  | [] => 0
  | t :: ts =>
    (if t.isPunctuator .leftBrace then 1 else if t.isPunctuator .rightBrace then -1 else 0) +
      braceBalance ts

@[simp] theorem braceBalance_nil : braceBalance [] = 0 := rfl

theorem braceBalance_append (ts us : List Terminal) :
    braceBalance (ts ++ us) = braceBalance ts + braceBalance us := by
  induction ts with
  | nil => rw [List.nil_append, braceBalance_nil, Int.zero_add]
  | cons t ts ih => rw [List.cons_append, braceBalance, braceBalance, ih, Int.add_assoc]

/-- What follows `before` is inside braces opened in it: some opening brace has not been closed. -/
def InsideBraces (before : List Terminal) : Prop :=
  ∃ outer opening inner, before = outer ++ opening :: inner ∧
    opening.isPunctuator .leftBrace = true ∧ ∀ front, front <+: inner → 0 ≤ braceBalance front

/-- A brace that is open stays so with terminals in front. -/
theorem InsideBraces.append_left {before : List Terminal} (h : InsideBraces before)
    (front : List Terminal) : InsideBraces (front ++ before) := by
  obtain ⟨outer, opening, inner, rfl, hopening, hinner⟩ := h
  exact ⟨front ++ outer, opening, inner, (List.append_assoc _ _ _).symm, hopening, hinner⟩

/-- **Where more braces have opened than closed, one is open.** -/
theorem insideBraces_of_braceBalance_pos {ts : List Terminal} (h : 0 < braceBalance ts) :
    InsideBraces ts := by
  induction hn : ts.length using Nat.strongRecOn generalizing ts with
  | _ n ih =>
    subst hn
    rcases ts with _ | ⟨t, ts⟩
    · exact absurd h (Int.lt_irrefl 0)
    by_cases hts : 0 < braceBalance ts
    · exact (ih _ (Nat.lt_succ_self _) hts rfl).append_left [t]
    -- The first brace makes the difference: it opens, and either is open still or was closed by
    -- terminals behind which the count is positive again.
    have hopening : t.isPunctuator .leftBrace = true := by
      by_contra hopening
      rw [braceBalance, if_neg hopening] at h
      split at h <;> omega
    rw [braceBalance, if_pos hopening] at h
    by_cases hprefix : ∀ front, front <+: ts → 0 ≤ braceBalance front
    · exact ⟨[], t, ts, rfl, hopening, hprefix⟩
    · push Not at hprefix
      obtain ⟨front, ⟨back, rfl⟩, hfront⟩ := hprefix
      rw [braceBalance_append] at h
      have hlt : back.length < (t :: (front ++ back)).length := by
        simp only [List.length_cons, List.length_append]
        omega
      exact (ih _ hlt (by omega) rfl).append_left (t :: front)

/-! ## Looking for a start -/

/-- `resumed` is the end of `terminals` from the first terminal on that can start a declaration and
is not barred; what stands in front of a terminal tells whether it is. -/
def ResumesAt (barred : List Terminal → Prop) (terminals resumed : List Terminal) : Prop :=
  ∃ skipped, terminals = skipped ++ resumed ∧
    (∀ t ∈ resumed.head?, t.startsDeclaration = true ∧ ¬ barred skipped) ∧
      ∀ before t after, skipped = before ++ t :: after → t.startsDeclaration = true → barred before

/-- A brace starts no declaration. -/
theorem not_startsDeclaration_of_isPunctuator {p : Punctuator} (h : t.isPunctuator p = true)
    (hp : p ≠ .atSign) : t.startsDeclaration = false := by
  have hkind : t.token.kind = .punctuator p := by
    simpa [Terminal.isPunctuator, TokenKind.isPunctuator] using h
  simp [Terminal.startsDeclaration, Terminal.isPunctuator, TokenKind.isPunctuator,
    Terminal.accessLevel?, TokenKind.accessLevel?, Terminal.isKeyword, TokenKind.isKeyword, hkind,
    hp]

/-- A terminal passed over, of which `delta` is the count, in front of those that stand up to the
next start. -/
theorem ResumesAt.cons {depth delta : Int} {resumed : List Terminal}
    (hbalance : ∀ us, braceBalance (t :: us) = delta + braceBalance us)
    (ht : t.startsDeclaration = true → 0 < depth)
    (h : ResumesAt (0 < depth + delta + braceBalance ·) ts resumed) :
    ResumesAt (0 < depth + braceBalance ·) (t :: ts) resumed := by
  obtain ⟨skipped, rfl, hresumed, hskipped⟩ := h
  refine ⟨t :: skipped, rfl, fun u hu => ?_, ?_⟩
  · dsimp only
    rw [hbalance, ← Int.add_assoc]
    exact hresumed u hu
  · rintro (_ | ⟨b, before⟩) u after hsplit hu
    · obtain ⟨rfl, -⟩ := List.cons.inj hsplit
      rw [braceBalance_nil, Int.add_zero]
      exact ht hu
    · obtain ⟨rfl, hbehind⟩ := List.cons.inj hsplit
      rw [hbalance, ← Int.add_assoc]
      exact hskipped before u after hbehind hu

/-- **The skip loop stops at the first start with no positive count in front of it.** -/
theorem nextStart_resumesAt (depth : Int) (ts : List Terminal) :
    ResumesAt (0 < depth + braceBalance ·) ts (nextStart depth ts) := by
  fun_induction nextStart depth ts with
  | case1 depth => exact ⟨[], rfl, by simp, by simp⟩
  | case2 depth t ts hopen ih =>
    refine ih.cons (fun us => by rw [braceBalance, if_pos hopen]) fun ht => ?_
    rw [not_startsDeclaration_of_isPunctuator hopen (by decide)] at ht
    cases ht
  | case3 depth t ts hopen hclose ih =>
    rw [Int.sub_eq_add_neg] at ih
    refine ih.cons (fun us => by rw [braceBalance, if_neg hopen, if_pos hclose]) fun ht => ?_
    rw [not_startsDeclaration_of_isPunctuator hclose (by decide)] at ht
    cases ht
  | case4 depth t ts _ _ hstart =>
    rw [Bool.and_eq_true, decide_eq_true_eq] at hstart
    refine ⟨[], rfl, ?_, by simp⟩
    rintro u ⟨⟩
    dsimp only
    rw [braceBalance_nil, Int.add_zero]
    exact ⟨hstart.2, Int.not_lt.2 hstart.1⟩
  | case5 depth t ts hopen hclose hstart ih =>
    have ih' : ResumesAt (0 < depth + 0 + braceBalance ·) ts (nextStart depth ts) := by
      rwa [Int.add_zero]
    refine ih'.cons (fun us => by rw [braceBalance, if_neg hopen, if_neg hclose]) fun ht => ?_
    rw [ht, Bool.and_true, decide_eq_true_eq, Int.not_le] at hstart
    exact hstart

/-- With the count at nothing, parsing goes on at the first start that the count allows. -/
theorem nextStart_zero_resumesAt (ts : List Terminal) :
    ResumesAt (0 < braceBalance ·) ts (nextStart 0 ts) := by
  simpa only [Int.zero_add] using nextStart_resumesAt 0 ts

/-! ## The rule, and where the parser follows it -/

/-- **Where parsing is to go on** when `attempt` has failed with `failed` left: at the first
terminal from there that can start a declaration, is not inside braces opened since the
failure, and has a terminal of the attempt in front of it; else at the end. -/
def IsResumption (attempt failed resumed : List Terminal) : Prop :=
  ResumesAt (fun before => InsideBraces before ∨ (before = [] ∧ failed = attempt)) failed resumed

/-- The terminals whose braces the parser counts: not the one passed over by force. -/
def counted (attempt failed before : List Terminal) : List Terminal :=
  if failed = attempt then before.tail else before

/-- **What the parser does**: it goes on at the first start with no positive count in front. -/
theorem resume_resumesAt (h : rest <:+ t :: ts) :
    ResumesAt (fun before => 0 < braceBalance (counted (t :: ts) rest before) ∨
      (before = [] ∧ rest = t :: ts)) rest (resume ts rest) := by
  rcases List.suffix_cons_iff.1 h with rfl | hsuffix
  · obtain ⟨skipped, hts, hresumed, hskipped⟩ := nextStart_zero_resumesAt ts
    rw [resume, if_neg (by simp)]
    refine ⟨t :: skipped, congrArg (t :: ·) hts, fun u hu => ?_, ?_⟩
    · obtain ⟨hstart, hcount⟩ := hresumed u hu
      exact ⟨hstart, by simpa [counted] using hcount⟩
    · rintro (_ | ⟨b, before⟩) u after hsplit hu
      · exact .inr ⟨rfl, rfl⟩
      · have hcount := hskipped before u after (List.cons.inj hsplit).2 hu
        exact .inl (by simpa [counted] using hcount)
  · obtain ⟨skipped, hrest, hresumed, hskipped⟩ := nextStart_zero_resumesAt rest
    have hne : rest ≠ t :: ts := by
      rintro rfl
      exact absurd hsuffix.length_le (by simp)
    rw [resume, if_pos hsuffix.length_le]
    refine ⟨skipped, hrest, fun u hu => ?_, fun before u after hsplit hu => .inl ?_⟩
    · obtain ⟨hstart, hcount⟩ := hresumed u hu
      exact ⟨hstart, by simpa [counted, hne] using hcount⟩
    · have hcount := hskipped before u after hsplit hu
      simpa [counted, hne] using hcount

/-- What is counted is the end of what was passed over. -/
theorem counted_suffix (attempt failed before : List Terminal) :
    counted attempt failed before <:+ before := by
  rw [counted]
  split
  · exact List.tail_suffix before
  · exact List.suffix_rfl

/-- **The parser goes on where it is to, exactly when it does not go on inside braces.** -/
theorem isResumption_resume_iff (h : rest <:+ t :: ts) {skipped : List Terminal}
    (hskipped : rest = skipped ++ resume ts rest) :
    IsResumption (t :: ts) rest (resume ts rest) ↔
      resume ts rest = [] ∨ ¬ InsideBraces skipped := by
  have inside {before : List Terminal}
      (hbefore : 0 < braceBalance (counted (t :: ts) rest before)) : InsideBraces before := by
    obtain ⟨front, hfront⟩ := counted_suffix (t :: ts) rest before
    rw [← hfront]
    exact (insideBraces_of_braceBalance_pos hbefore).append_left front
  constructor
  · rintro ⟨skipped', hskipped', hresumed, -⟩
    rcases hresume : resume ts rest with _ | ⟨u, us⟩
    · exact .inl rfl
    · refine .inr fun hinside => (hresumed u (by rw [hresume]; rfl)).2 (.inl ?_)
      rwa [← List.append_cancel_right (hskipped.symm.trans hskipped')]
  · intro hresume
    obtain ⟨skipped', hskipped', hresumed, hbarred⟩ := resume_resumesAt h
    obtain rfl := List.append_cancel_right (hskipped.symm.trans hskipped')
    refine ⟨skipped, hskipped, fun u hu => ⟨(hresumed u hu).1, ?_⟩, ?_⟩
    · rintro (hinside | hnothing)
      · rcases hresume with hnil | hout
        · rw [hnil] at hu
          cases hu
        · exact hout hinside
      · exact (hresumed u hu).2 (.inr hnothing)
    · intro before u after hsplit hu
      exact (hbarred before u after hsplit hu).imp_left inside

/-- A brace that is open is counted, where no brace closes but one that was counted. -/
theorem braceBalance_pos_of_insideBraces {before : List Terminal} (h : InsideBraces before)
    (hbefore : ∀ front, front <+: before → 0 ≤ braceBalance front) : 0 < braceBalance before := by
  obtain ⟨outer, opening, inner, rfl, hopening, hinner⟩ := h
  have houter := hbefore outer (List.prefix_append _ _)
  have hinner' := hinner inner List.prefix_rfl
  rw [braceBalance_append, braceBalance, if_pos hopening]
  omega

/-- **Without a closing brace of the failed declaration the parser goes on where it is to**, unless
it passes over an opening brace by force. -/
theorem isResumption_of_nonneg (h : rest <:+ t :: ts)
    (hforced : rest = t :: ts → t.isPunctuator .leftBrace = false)
    (hrest : ∀ front, front <+: rest → 0 ≤ braceBalance front) :
    IsResumption (t :: ts) rest (resume ts rest) := by
  obtain ⟨skipped, hskipped, hresumed, -⟩ := resume_resumesAt h
  rw [isResumption_resume_iff h hskipped]
  rcases hresume : resume ts rest with _ | ⟨u, us⟩
  · exact .inl rfl
  refine .inr fun hinside => (hresumed u (by rw [hresume]; rfl)).2 (.inl ?_)
  have hpos : 0 < braceBalance skipped := by
    refine braceBalance_pos_of_insideBraces hinside fun front hfront => hrest front ?_
    rw [hskipped]
    exact hfront.trans (List.prefix_append _ _)
  rw [counted]
  split
  · rename_i hnothing
    rcases skipped with _ | ⟨v, skipped⟩
    · exact hpos
    · obtain rfl : v = t := by
        rw [hnothing, List.cons_append] at hskipped
        exact (List.cons.inj hskipped).1.symm
      rw [braceBalance, hforced hnothing, if_neg Bool.false_ne_true] at hpos
      rw [List.tail_cons]
      split at hpos <;> omega
  · exact hpos

/-- **Where parsing goes on after a failed declaration**, and when that is where it is to: just when
it goes on at the end, or outside the braces opened since the failure. -/
theorem declarations_resume_of_failed {stop : Location} {cause : Cause}
    (hs : t.isPunctuator .semicolon = false)
    (h : (declaration (t :: ts)).reading = .failed cause rest) :
    declarations stop (t :: ts) =
        .diagnose (declaration (t :: ts)).diagnostics
          (.fail (.ofCause stop cause) (declarations stop (resume ts rest))) ∧
      ∃ skipped, rest = skipped ++ resume ts rest ∧
        ResumesAt (fun before => 0 < braceBalance (counted (t :: ts) rest before) ∨
          (before = [] ∧ rest = t :: ts)) rest (resume ts rest) ∧
        (IsResumption (t :: ts) rest (resume ts rest) ↔
          resume ts rest = [] ∨ ¬ InsideBraces skipped) := by
  have hsuffix : rest <:+ t :: ts := by
    have hreading := declaration_rest_suffix (t :: ts)
    rwa [h] at hreading
  have hresume := resume_resumesAt hsuffix
  obtain ⟨skipped, hskipped, -⟩ := hresume
  exact ⟨declarations_of_failed hs h, skipped, hskipped, resume_resumesAt hsuffix,
    isResumption_resume_iff hsuffix hskipped⟩

/-- Behind a stray name parsing goes on at the import. -/
theorem isResumption_behind_name :
    let name : Terminal := ⟨[], ⟨.identifier "x", .empty (.start "p")⟩⟩
    let start : Terminal := ⟨[], ⟨.keyword ⟨"import", .declaration⟩, .empty (.start "p")⟩⟩
    (declaration [name, start]).reading =
        .failed (.unexpected .declaration (some name.token)) [name, start] ∧
      IsResumption [name, start] [name, start] [start] := by
  intro name start
  have hreading : (declaration [name, start]).reading =
      .failed (.unexpected .declaration (some name.token)) [name, start] := by decide +kernel
  have hresume : resume [start] [name, start] = [start] := rfl
  obtain ⟨-, skipped, hskipped, -, hiff⟩ :=
    @declarations_resume_of_failed name [start] _ (.start "p") _ (by decide) hreading
  rw [hresume] at hskipped hiff
  obtain rfl : [name] = skipped := (List.append_left_inj [start]).1 hskipped
  refine ⟨hreading, hiff.2 (.inr ?_)⟩
  rintro ⟨outer, opening, inner, hsplit, hopening, -⟩
  have hmem : opening ∈ [name] := by
    rw [hsplit]
    exact List.mem_append_right _ List.mem_cons_self
  rw [List.mem_singleton.1 hmem] at hopening
  exact absurd hopening (by decide)

/-- The terminals of `enum foo { case 1 } { enum bar {} }`: a declaration that fails with its
closing brace behind it, and one inside braces. -/
def strayBrace : List Terminal :=
  [.keyword ⟨"enum", .declaration⟩, .identifier "foo", .punctuator .leftBrace,
    .keyword ⟨"case", .statement⟩, .literal (.number .decimalInteger "1"), .punctuator .rightBrace,
    .punctuator .leftBrace, .keyword ⟨"enum", .declaration⟩, .identifier "bar",
    .punctuator .leftBrace, .punctuator .rightBrace, .punctuator .rightBrace].map
      fun kind => ⟨[], kind, .empty (.start "p")⟩

/-- **A closing brace of the failed declaration hides the opening brace behind it**: `enum bar` is
inside braces, and parsing goes on there. -/
theorem resume_inside_braces :
    ∃ cause rest, (declaration strayBrace).reading = .failed cause rest ∧
      ¬ IsResumption strayBrace rest (resume strayBrace.tail rest) := by
  have hreading : (declaration strayBrace).reading =
      .failed (.unexpected .elementName (strayBrace[4]?.map (·.token))) (strayBrace.drop 4) := by
    decide +kernel
  have hresume : resume strayBrace.tail (strayBrace.drop 4) = strayBrace.drop 7 := rfl
  have hsplit : strayBrace.drop 4 = (strayBrace.drop 4).take 3 ++ strayBrace.drop 7 := rfl
  have hinside : InsideBraces ((strayBrace.drop 4).take 3) := by
    have hbrace : (strayBrace.drop 6).head?.map (·.isPunctuator .leftBrace) = some true := rfl
    have houter : (strayBrace.drop 4).take 3 =
      (strayBrace.drop 4).take 2 ++ (strayBrace.drop 6).head?.toList := rfl
    obtain ⟨opening, hhead, hopening⟩ := Option.map_eq_some_iff.1 hbrace
    rw [hhead] at houter
    refine ⟨_, opening, [], houter, hopening, fun front hfront => ?_⟩
    rw [List.prefix_nil.1 hfront]
    exact Int.le_refl 0
  have hsome : (strayBrace.drop 7).head?.isSome = true := rfl
  obtain ⟨u, hu⟩ := Option.isSome_iff_exists.1 hsome
  refine ⟨_, _, hreading, ?_⟩
  rintro ⟨skipped, hskipped, hresumed, -⟩
  rw [hresume] at hskipped hresumed
  rw [List.append_cancel_right (hskipped.symm.trans hsplit)] at hresumed
  exact (hresumed u hu).2 (.inl hinside)

end DeclFront.Grammar
