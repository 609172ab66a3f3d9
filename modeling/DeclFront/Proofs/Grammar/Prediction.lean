import DeclFront.Proofs.Grammar.Declaration

/-!
# Proofs/Grammar/Prediction — a rule fails as soon as it can

A rule of the grammar looks one terminal ahead.  So what it reads is decided by the terminals that
it takes and by the one behind them, and where it fails at a terminal it fails there whatever stands
further on, while what it has taken so far can still be continued to all that it wants.
`Predictive` says so of a rule, with the terminal lists that the rule is there to read as its
*phrases*.  It is proved rule by rule: one rule after another is predictive if both are
(`Predictive.andThen`), and at its front a rule takes a terminal, takes nothing or fails.

The clause of an attribute is the exception, since its end may be any number of terminals away; of
that `Proofs/Grammar/Unclosed` says more.
-/

namespace DeclFront

namespace Reading

variable {α β : Type} {reading : Reading α} {cause : Cause} {rest : List Terminal}

theorem map_eq_failed_iff {f : α → β} :
    reading.map f = .failed cause rest ↔ reading = .failed cause rest := by
  cases reading <;> simp [map]

/-- Two rules fail together when the first does, or when the second does on what the first
leaves. -/
theorem andThen_eq_failed_iff {rule : α → List Terminal → Reading β} :
    reading.andThen rule = .failed cause rest ↔ reading = .failed cause rest ∨
      ∃ a middle, reading = .done a middle ∧ rule a middle = .failed cause rest := by
  cases reading <;> grind [andThen]

end Reading

namespace Grammar

variable {α β : Type} {t : Terminal} {terminals ts us rest : List Terminal}

/-! ## Continuations -/

/-- A significant terminal with no place in a text. -/
def fresh (leading : List Token) (kind : TokenKind) : Terminal :=
  ⟨leading, ⟨kind, .empty (.start "")⟩⟩

/-- Significant terminals, each with the same trivia in front. -/
def AreFresh (leading : List Token) (ts : List Terminal) : Prop :=
  ∀ t ∈ ts, t.leading = leading ∧ t.token.isTrivia = false

theorem areFresh_nil (leading : List Token) : AreFresh leading [] := List.forall_mem_nil _

theorem AreFresh.append {leading : List Token} (hts : AreFresh leading ts)
    (hus : AreFresh leading us) : AreFresh leading (ts ++ us) := fun t ht =>
  (List.mem_append.1 ht).elim (hts t) (hus t)

theorem areFresh_singleton (leading : List Token) {kind : TokenKind} (h : kind.isTrivia = false) :
    AreFresh leading [fresh leading kind] := fun _ ht => List.mem_singleton.1 ht ▸ ⟨rfl, h⟩

/-- The terminals can be continued to a phrase, whatever trivia stands behind them. -/
def Viable (phrase : List Terminal → Prop) (ts : List Terminal) : Prop :=
  ∀ leading, ∃ more, AreFresh leading more ∧ phrase (ts ++ more)

/-- A phrase and another behind it. -/
def Followed (p q : List Terminal → Prop) (ts : List Terminal) : Prop :=
  ∃ front back, ts = front ++ back ∧ p front ∧ q back

namespace Viable

variable {p q : List Terminal → Prop}

/-- What continues to a phrase continues to a phrase of any larger sort. -/
theorem imp (h : Viable p ts) (hpq : ∀ us, p us → q us) : Viable q ts := fun leading =>
  let ⟨more, hmore, hphrase⟩ := h leading
  ⟨more, hmore, hpq _ hphrase⟩

/-- A phrase can be continued by nothing. -/
theorem of_phrase (h : p ts) : Viable p ts := fun leading =>
  ⟨[], areFresh_nil leading, by rwa [List.append_nil]⟩

/-- Where one terminal alone is a phrase, nothing has to stand yet. -/
theorem of_fresh {kind : TokenKind} (hkind : kind.isTrivia = false)
    (h : ∀ leading, p [fresh leading kind]) : Viable p [] := fun leading =>
  ⟨[fresh leading kind], areFresh_singleton leading hkind, h leading⟩

/-- Inside the first of two phrases, the second can still be added. -/
theorem followed_left (h : Viable p ts) (hq : Viable q []) : Viable (Followed p q) ts := by
  intro leading
  obtain ⟨more, hmore, hp⟩ := h leading
  obtain ⟨back, hback, hq⟩ := hq leading
  exact ⟨more ++ back, hmore.append hback, ts ++ more, back, (List.append_assoc _ _ _).symm, hp, hq⟩

/-- Behind the first of two phrases, the second remains to be continued. -/
theorem followed_right (hp : p ts) (h : Viable q us) : Viable (Followed p q) (ts ++ us) := by
  intro leading
  obtain ⟨more, hmore, hq⟩ := h leading
  exact ⟨more, hmore, ts, us ++ more, List.append_assoc _ _ _, hp, hq⟩

end Viable

/-! ## Predictive rules -/

/-- What the rule makes of the terminals is decided where it stops reading. -/
structure Predictive (rule : List Terminal → Reading α) (phrase : List Terminal → Prop)
    (terminals : List Terminal) : Prop where
  /-- A phrase is read if the next terminal does not continue it. -/
  done : ∀ {a rest}, rule terminals = .done a rest →
    ∃ front, terminals = front ++ rest ∧ phrase front ∧
      ∀ rest', rest'.head? = rest.head? → rule (front ++ rest') = .done a rest'
  /-- A terminal is blamed if it does not continue what can be continued. -/
  stuck : ∀ {wanted t rest}, rule terminals = .failed (.unexpected wanted (some t)) rest →
    ∃ front u back, u.token = t ∧ terminals = front ++ u :: back ∧ Viable phrase front ∧
      ∀ back', rule (front ++ u :: back') = .failed (.unexpected wanted (some t)) (u :: back')
  /-- The end is blamed if it can be continued. -/
  ended : ∀ {wanted rest}, rule terminals = .failed (.unexpected wanted none) rest →
    Viable phrase terminals

theorem eq_cons_of_head? {t : Terminal} {ts us : List Terminal} (h : us.head? = (t :: ts).head?) :
    ∃ vs, us = t :: vs := List.head?_eq_some_iff.1 h

theorem eq_nil_of_head? {us : List Terminal} (h : us.head? = ([] : List Terminal).head?) :
    us = [] := List.head?_eq_none_iff.1 h

namespace Predictive

variable {rule : List Terminal → Reading α} {p q : List Terminal → Prop}

theorem imp (h : Predictive rule p terminals) (hpq : ∀ us, p us → q us) :
    Predictive rule q terminals where
  done hdone :=
    let ⟨front, hterminals, hfront, hlocal⟩ := h.done hdone
    ⟨front, hterminals, hpq _ hfront, hlocal⟩
  stuck hfailed :=
    let ⟨front, u, back, hu, hterminals, hviable, hlocal⟩ := h.stuck hfailed
    ⟨front, u, back, hu, hterminals, hviable.imp hpq, hlocal⟩
  ended hfailed := (h.ended hfailed).imp hpq

/-- A phrase is read where the next terminal does not continue it. -/
theorem of_read (a : α) (front : List Terminal)
    (h : ∀ us, us.head? = rest.head? → rule (front ++ us) = .done a us) (hphrase : p front) :
    Predictive rule p (front ++ rest) where
  done hdone := by
    rw [h rest rfl] at hdone
    cases hdone
    exact ⟨front, rfl, hphrase, h⟩
  stuck hfailed := by
    rw [h rest rfl] at hfailed
    cases hfailed
  ended hfailed := by
    rw [h rest rfl] at hfailed
    cases hfailed

/-- Nothing is read. -/
theorem of_done (a : α)
    (h : ∀ us, us.head? = terminals.head? → rule us = .done a us) (hphrase : p []) :
    Predictive rule p terminals := of_read a [] h hphrase

/-- The first terminal is blamed, or the end. -/
theorem of_unexpected (wanted : Expectation)
    (h : ∀ us, us.head? = terminals.head? → rule us = .unexpected wanted us)
    (hphrase : Viable p []) : Predictive rule p terminals where
  done hdone := by
    rw [h terminals rfl] at hdone
    cases hdone
  stuck hfailed := by
    rcases terminals with _ | ⟨u, back⟩
    · rw [h [] rfl] at hfailed
      cases hfailed
    · rw [h _ rfl] at hfailed
      cases hfailed
      exact ⟨[], u, back, rfl, rfl, hphrase, fun back' => h _ rfl⟩
  ended hfailed := by
    rcases terminals with _ | ⟨u, back⟩
    · exact hphrase
    · rw [h _ rfl] at hfailed
      cases hfailed

/-- Neither a terminal nor the end is blamed where a clause is not closed. -/
theorem of_unclosed {opening : Token}
    (h : rule terminals = .failed (.unclosedArguments opening) rest) :
    Predictive rule p terminals where
  done hdone := by
    rw [h] at hdone
    cases hdone
  stuck hfailed := by
    rw [h] at hfailed
    cases hfailed
  ended hfailed := by
    rw [h] at hfailed
    cases hfailed

/-- The first terminal is taken. -/
theorem cons (inner : List Terminal → Reading α) (hrule : ∀ us, rule (t :: us) = inner us)
    (h : Predictive inner p ts) :
    Predictive rule (fun us => ∃ vs, us = t :: vs ∧ p vs) (t :: ts) where
  done hdone := by
    rw [hrule] at hdone
    obtain ⟨front, rfl, hfront, hlocal⟩ := h.done hdone
    exact ⟨t :: front, rfl, ⟨front, rfl, hfront⟩,
      fun rest' hrest' => (hrule _).trans (hlocal rest' hrest')⟩
  stuck hfailed := by
    rw [hrule] at hfailed
    obtain ⟨front, u, back, hu, rfl, hviable, hlocal⟩ := h.stuck hfailed
    refine ⟨t :: front, u, back, hu, rfl, fun leading => ?_,
      fun back' => (hrule _).trans (hlocal _)⟩
    obtain ⟨more, hmore, hphrase⟩ := hviable leading
    exact ⟨more, hmore, front ++ more, rfl, hphrase⟩
  ended hfailed := by
    rw [hrule] at hfailed
    intro leading
    obtain ⟨more, hmore, hphrase⟩ := h.ended hfailed leading
    exact ⟨more, hmore, ts ++ more, rfl, hphrase⟩

/-- The value that a rule makes does not matter to what decides it. -/
theorem map (h : Predictive rule p terminals) (f : α → β) :
    Predictive (fun us => (rule us).map f) p terminals where
  done hdone := by
    obtain ⟨a, hread, rfl⟩ := Reading.map_eq_done_iff.1 hdone
    obtain ⟨front, hterminals, hfront, hlocal⟩ := h.done hread
    exact ⟨front, hterminals, hfront,
      fun rest' hrest' => Reading.map_eq_done_iff.2 ⟨a, hlocal rest' hrest', rfl⟩⟩
  stuck hfailed := by
    obtain ⟨front, u, back, hu, hterminals, hviable, hlocal⟩ :=
      h.stuck (Reading.map_eq_failed_iff.1 hfailed)
    exact ⟨front, u, back, hu, hterminals, hviable,
      fun back' => Reading.map_eq_failed_iff.2 (hlocal back')⟩
  ended hfailed := h.ended (Reading.map_eq_failed_iff.1 hfailed)

/-- **A predictive rule and another behind it are predictive.** -/
theorem andThen {rule' : α → List Terminal → Reading β} (h : Predictive rule p terminals)
    (hq : Viable q [])
    (h' : ∀ a rest, rule terminals = .done a rest → Predictive (rule' a) q rest) :
    Predictive (fun us => (rule us).andThen rule') (Followed p q) terminals where
  done hdone := by
    obtain ⟨a, middle, hread, hread'⟩ := Reading.andThen_eq_done_iff.1 hdone
    obtain ⟨front, rfl, hfront, hlocal⟩ := h.done hread
    obtain ⟨back, rfl, hback, hlocal'⟩ := (h' a middle hread).done hread'
    refine ⟨front ++ back, (List.append_assoc _ _ _).symm, ⟨front, back, rfl, hfront, hback⟩,
      fun rest' hrest' => ?_⟩
    rw [List.append_assoc]
    exact Reading.andThen_eq_done_iff.2 ⟨a, back ++ rest',
      hlocal _ (by rw [List.head?_append, List.head?_append, hrest']), hlocal' rest' hrest'⟩
  stuck hfailed := by
    rcases Reading.andThen_eq_failed_iff.1 hfailed with hread | ⟨a, middle, hread, hread'⟩
    · obtain ⟨front, u, back, hu, hterminals, hviable, hlocal⟩ := h.stuck hread
      exact ⟨front, u, back, hu, hterminals, hviable.followed_left hq,
        fun back' => Reading.andThen_eq_failed_iff.2 (.inl (hlocal back'))⟩
    · obtain ⟨front, rfl, hfront, hlocal⟩ := h.done hread
      obtain ⟨back, u, behind, hu, rfl, hviable, hlocal'⟩ := (h' a middle hread).stuck hread'
      refine ⟨front ++ back, u, behind, hu, (List.append_assoc _ _ _).symm,
        hviable.followed_right hfront, fun back' => ?_⟩
      rw [List.append_assoc]
      exact Reading.andThen_eq_failed_iff.2 (.inr ⟨a, back ++ u :: back',
        hlocal _ (by rw [List.head?_append, List.head?_append]; rfl), hlocal' back'⟩)
  ended hfailed := by
    rcases Reading.andThen_eq_failed_iff.1 hfailed with hread | ⟨a, middle, hread, hread'⟩
    · exact (h.ended hread).followed_left hq
    · obtain ⟨front, rfl, hfront, -⟩ := h.done hread
      exact ((h' a middle hread).ended hread').followed_right hfront

end Predictive

/-! ## Terminals and names -/

/-- **A token of one sort is predictive**, as soon as some kind is of that sort. -/
theorem predictive_token {wanted : Expectation} {accepts : Terminal → Bool} (kind : TokenKind)
    (hkind : kind.isTrivia = false) (haccepts : ∀ leading, accepts (fresh leading kind) = true)
    (terminals : List Terminal) :
    Predictive (token wanted accepts) (fun us => ∃ u, accepts u = true ∧ us = [u]) terminals := by
  have hviable : Viable (fun us => ∃ u, accepts u = true ∧ us = [u]) [] :=
    .of_fresh hkind fun leading => ⟨_, haccepts leading, rfl⟩
  rcases terminals with _ | ⟨t, ts⟩
  · refine .of_unexpected wanted (fun us hus => ?_) hviable
    rw [eq_nil_of_head? hus]
    rfl
  by_cases ht : accepts t = true
  · refine (Predictive.cons (.done t.token) (p := (· = [])) (fun us => if_pos ht)
      (.of_done _ (fun _ _ => rfl) rfl)).imp ?_
    rintro _ ⟨_, rfl, rfl⟩
    exact ⟨t, ht, rfl⟩
  · refine .of_unexpected wanted (fun us hus => ?_) hviable
    obtain ⟨vs, rfl⟩ := eq_cons_of_head? hus
    exact if_neg ht

/-- A name with no place in a text. -/
def freshName (leading : List Token) : NameLeaf := ⟨fresh leading (.identifier "a"), "a", rfl⟩

/-- Any identifier will do for a name. -/
theorem predictive_name (wanted : Expectation) (terminals : List Terminal) :
    Predictive (name wanted) (fun us => ∃ leaf : NameLeaf, us = [leaf.terminal]) terminals := by
  have hviable : Viable (fun us => ∃ leaf : NameLeaf, us = [leaf.terminal]) [] :=
    .of_fresh rfl fun leading => ⟨freshName leading, rfl⟩
  rcases terminals with _ | ⟨t, ts⟩
  · refine .of_unexpected wanted (fun us hus => ?_) hviable
    rw [eq_nil_of_head? hus]
    rfl
  cases ht : t.name? with
  | some n =>
    obtain ⟨leaf, rfl, rfl⟩ := name?_eq_some_iff.1 ht
    refine (Predictive.cons (.done leaf.name) (p := (· = [])) (fun us => ?_)
      (.of_done _ (fun _ _ => rfl) rfl)).imp ?_
    · rw [name, ht]
    · rintro _ ⟨_, rfl, rfl⟩
      exact ⟨leaf, rfl⟩
  | none =>
    refine .of_unexpected wanted (fun us hus => ?_) hviable
    obtain ⟨vs, rfl⟩ := eq_cons_of_head? hus
    rw [name, ht]

section Names

variable {separator : Punctuator}

/-- A separator wants a name behind it. -/
theorem furtherNames_of_separator {wanted : Expectation} (ht : t.isPunctuator separator = true)
    (ts : List Terminal) :
    furtherNames separator wanted (t :: ts) =
      (name wanted ts).andThen fun n rest => (furtherNames separator wanted rest).map (n :: ·) := by
  rcases ts with _ | ⟨u, us⟩
  · rw [furtherNames, if_pos ht]
    rfl
  · rw [furtherNames, if_pos ht, name]
    rcases u.name? with _ | n <;> rfl

/-- A separator calls for a name behind it, and anything else ends the list. -/
theorem predictive_furtherNames (wanted : Expectation) (terminals : List Terminal) :
    Predictive (furtherNames separator wanted)
      (fun us => ∃ others : List (Mark separator × NameLeaf), us = yieldOthers others)
      terminals := by
  induction hn : terminals.length using Nat.strongRecOn generalizing terminals with
  | _ n ih =>
    subst hn
    rcases terminals with _ | ⟨t, ts⟩
    · refine .of_done [] (fun us hus => ?_) ⟨[], rfl⟩
      rw [eq_nil_of_head? hus]
      rfl
    by_cases ht : t.isPunctuator separator = true
    · have hinner := (predictive_name wanted ts).andThen (.of_phrase ⟨[], rfl⟩) fun n rest hread =>
        (ih rest.length (Nat.lt_succ_of_lt (length_lt_of_name hread)) rest rfl).map (n :: ·)
      refine (hinner.cons _ (furtherNames_of_separator ht)).imp ?_
      rintro _ ⟨_, rfl, _, _, rfl, ⟨leaf, rfl⟩, others, rfl⟩
      exact ⟨(⟨t, ht⟩, leaf) :: others, rfl⟩
    · refine .of_done [] (fun us hus => ?_) ⟨[], rfl⟩
      obtain ⟨vs, rfl⟩ := eq_cons_of_head? hus
      rw [furtherNames.eq_def]
      exact if_neg ht

theorem predictive_names (wantedFirst wantedNext : Expectation) (terminals : List Terminal) :
    Predictive (names separator wantedFirst wantedNext)
      (fun us => ∃ tree : NamesTree separator, us = tree.yield) terminals := by
  have h := (predictive_name wantedFirst terminals).andThen (.of_phrase ⟨[], rfl⟩) fun n rest _ =>
    (@predictive_furtherNames separator wantedNext rest).map (⟨n, ·⟩ : _ → Names)
  refine h.imp ?_
  rintro _ ⟨_, _, rfl, ⟨leaf, rfl⟩, others, rfl⟩
  exact ⟨⟨leaf, others⟩, rfl⟩

end Names

/-! ## The head -/

/-- What stands behind the name of an attribute. -/
def behindName (sign : Token) (n : Name) : List Terminal → Reading Attribute
  | [] => .done ⟨n.text, none, sign.range.through n.range⟩ []
  | t :: ts =>
    if t.isAdjacent && t.isPunctuator .leftParen then
      match ArgumentClause.read 1 ts with
      | some clause =>
        .done ⟨n.text, some (clause.text t.token), sign.range.through clause.closing.range⟩
          clause.rest
      | none => .failed (.unclosedArguments t.token) []
    else .done ⟨n.text, none, sign.range.through n.range⟩ (t :: ts)

section BehindName

variable {sign : Token} {n : Name} {t : Terminal} {ts : List Terminal}

/-- With a clause behind its name, an attribute takes it as its arguments. -/
theorem behindName_of_clause {clause : ArgumentClause}
    (ht : opensClause t = true) (h : ArgumentClause.read 1 ts = some clause) :
    behindName sign n (t :: ts) =
      .done ⟨n.text, some (clause.text t.token), sign.range.through clause.closing.range⟩
        clause.rest := by
  refine (if_pos ht).trans ?_
  rw [h]

/-- With a clause that is left open behind its name, an attribute takes everything and fails. -/
theorem behindName_of_unclosed (ht : opensClause t = true)
    (h : ArgumentClause.read 1 ts = none) :
    behindName sign n (t :: ts) = .failed (.unclosedArguments t.token) [] := by
  refine (if_pos ht).trans ?_
  rw [h]

/-- Without an adjacent parenthesis behind its name, an attribute is complete. -/
theorem behindName_of_other (ht : opensClause t = false) :
    behindName sign n (t :: ts) =
      .done ⟨n.text, none, sign.range.through n.range⟩ (t :: ts) :=
  if_neg (Bool.eq_false_iff.1 ht)

end BehindName

/-- An attribute is a name and what stands behind it. -/
theorem attributeAfterSign_eq (sign : Token) (ts : List Terminal) :
    attributeAfterSign sign ts = (name .attributeName ts).andThen (behindName sign) := by
  rw [attributeAfterSign]
  rfl

/-- Behind its name an attribute blames no terminal: a clause is read, left out or left open. -/
theorem predictive_behindName (sign : Token) (n : Name) (terminals : List Terminal) :
    Predictive (behindName sign n)
      (fun us => ∃ clause : Option ClauseTree, us = (clause.map ClauseTree.yield).getD [])
      terminals := by
  rcases terminals with _ | ⟨t, ts⟩
  · refine .of_done ⟨n.text, none, sign.range.through n.range⟩ (fun us hus => ?_) ⟨none, rfl⟩
    rw [eq_nil_of_head? hus]
    rfl
  by_cases ht : (t.isAdjacent && t.isPunctuator .leftParen) = true
  · cases hread : ArgumentClause.read 1 ts with
    | some clause =>
      obtain ⟨hbalanced, hclosing, rfl⟩ := ArgumentClause.read_one_eq_some_iff.1 hread
      obtain ⟨hadjacent, hopening⟩ := Bool.and_eq_true_iff.1 ht
      let tree : ClauseTree :=
        ⟨⟨t, hopening⟩, hadjacent, clause.inner, hbalanced, ⟨clause.closing, hclosing⟩⟩
      have hterminals : t :: (clause.inner ++ clause.closing :: clause.rest) =
          tree.yield ++ clause.rest := by simp [ClauseTree.yield, tree]
      rw [hterminals]
      refine .of_read ⟨n.text, some (clause.text t.token),
        sign.range.through clause.closing.range⟩ tree.yield (fun rest _ => ?_) ⟨some tree, rfl⟩
      have hread' : ArgumentClause.read 1 (clause.inner ++ clause.closing :: rest) =
          some ⟨clause.inner, clause.closing, rest⟩ :=
        ArgumentClause.read_one_eq_some_iff.2 ⟨hbalanced, hclosing, rfl⟩
      simp only [ClauseTree.yield, tree, List.cons_append, List.append_assoc, List.nil_append,
        behindName, ht, if_true, hread']
      rfl
    | none =>
      have hfailed : behindName sign n (t :: ts) = .failed (.unclosedArguments t.token) [] := by
        rw [behindName, if_pos ht, hread]
      exact .of_unclosed hfailed
  · refine .of_done ⟨n.text, none, sign.range.through n.range⟩ (fun us hus => ?_) ⟨none, rfl⟩
    obtain ⟨vs, rfl⟩ := eq_cons_of_head? hus
    exact if_neg ht

/-- A sign wants an attribute behind it, and others may follow. -/
theorem attributes_of_sign (ht : t.isPunctuator .atSign = true) (ts : List Terminal) :
    attributes (t :: ts) = ((name .attributeName ts).andThen (behindName t.token)).andThen
      fun a rest => (attributes rest).map (a :: ·) := by
  rw [← attributeAfterSign_eq]
  cases hread : attributeAfterSign t.token ts with
  | done a rest => exact attributes_of_done ht hread
  | failed cause rest => exact attributes_of_failed ht hread

/-- A sign calls for an attribute, and anything else ends the list. -/
theorem predictive_attributes (terminals : List Terminal) :
    Predictive attributes
      (fun us => ∃ trees : List AttributeTree, us = trees.flatMap AttributeTree.yield)
      terminals := by
  induction hn : terminals.length using Nat.strongRecOn generalizing terminals with
  | _ n ih =>
    subst hn
    rcases terminals with _ | ⟨t, ts⟩
    · refine .of_done [] (fun us hus => ?_) ⟨[], rfl⟩
      rw [eq_nil_of_head? hus, attributes]
    cases ht : t.isPunctuator .atSign with
    | true =>
      have hattribute := (predictive_name .attributeName ts).andThen (.of_phrase ⟨none, rfl⟩)
        fun n rest _ => predictive_behindName t.token n rest
      have hinner := hattribute.andThen (.of_phrase ⟨[], rfl⟩) fun a rest hread =>
        (ih rest.length (Nat.lt_succ_of_lt (length_lt_of_attributeAfterSign
          ((attributeAfterSign_eq t.token ts).trans hread))) rest rfl).map (a :: ·)
      refine (hinner.cons _ (attributes_of_sign ht)).imp ?_
      rintro _ ⟨_, rfl, _, _, rfl, ⟨_, _, rfl, ⟨leaf, rfl⟩, clause, rfl⟩, trees, rfl⟩
      exact ⟨⟨⟨t, ht⟩, leaf, clause⟩ :: trees, rfl⟩
    | false =>
      refine .of_done [] (fun us hus => ?_) ⟨[], rfl⟩
      obtain ⟨vs, rfl⟩ := eq_cons_of_head? hus
      exact attributes_of_other ht

/-- What stands behind the keyword of a modifier. -/
def behindLevel (level : AccessLevel) (r : Range) : List Terminal → Reading (Option AccessModifier)
  | [] => .done (some ⟨level, false, r⟩) []
  | u :: us =>
    if u.isPunctuator .leftParen then
      (token (.setKeyword level) (·.isKeyword "set") us).andThen fun _ rest =>
        (token .closeAfterSet (·.isPunctuator .rightParen) rest).map fun close =>
          some ⟨level, true, r.through close.range⟩
    else .done (some ⟨level, false, r⟩) (u :: us)

theorem predictive_set (level : AccessLevel) (terminals : List Terminal) :
    Predictive (token (.setKeyword level) (·.isKeyword "set"))
      (fun us => ∃ u, u.isKeyword "set" = true ∧ us = [u]) terminals :=
  predictive_token (.keyword ⟨"set", .contextual .accessor⟩) rfl (fun _ => rfl) terminals

theorem predictive_closing (terminals : List Terminal) :
    Predictive (token .closeAfterSet (·.isPunctuator .rightParen))
      (fun us => ∃ u, u.isPunctuator .rightParen = true ∧ us = [u]) terminals :=
  predictive_token (.punctuator .rightParen) rfl (fun _ => rfl) terminals

/-- A punctuator can always be added. -/
theorem viable_punctuator (p : Punctuator) :
    Viable (fun us => ∃ u, u.isPunctuator p = true ∧ us = [u]) [] :=
  @Viable.of_fresh _ (.punctuator p) rfl fun _ => ⟨_, beq_self_eq_true _, rfl⟩

/-- A parenthesis behind an access keyword calls for `set` and its closing one. -/
theorem predictive_behindLevel (level : AccessLevel) (r : Range) (terminals : List Terminal) :
    Predictive (behindLevel level r)
      (fun us => ∃ setter : Option SetterTree, us = (setter.map SetterTree.yield).getD [])
      terminals := by
  rcases terminals with _ | ⟨t, ts⟩
  · refine .of_done (some ⟨level, false, r⟩) (fun us hus => ?_) ⟨none, rfl⟩
    rw [eq_nil_of_head? hus]
    rfl
  by_cases ht : t.isPunctuator .leftParen = true
  · have hword := predictive_set level ts
    have hinner := hword.andThen (viable_punctuator .rightParen) fun _ rest _ =>
      (predictive_closing rest).map fun close =>
        some (AccessModifier.mk level true (r.through close.range))
    refine (hinner.cons _ fun us => if_pos ht).imp ?_
    rintro _ ⟨_, rfl, _, _, rfl, ⟨word, hword, rfl⟩, close, hclose, rfl⟩
    exact ⟨some ⟨⟨t, ht⟩, ⟨word, hword⟩, ⟨close, hclose⟩⟩, rfl⟩
  · refine .of_done (some ⟨level, false, r⟩) (fun us hus => ?_) ⟨none, rfl⟩
    obtain ⟨vs, rfl⟩ := eq_cons_of_head? hus
    exact if_neg ht

theorem predictive_accessModifier (terminals : List Terminal) :
    Predictive accessModifier
      (fun us => ∃ modifier : Option ModifierTree, us = (modifier.map ModifierTree.yield).getD [])
      terminals := by
  rcases terminals with _ | ⟨t, ts⟩
  · refine .of_done none (fun us hus => ?_) ⟨none, rfl⟩
    rw [eq_nil_of_head? hus]
    rfl
  cases ht : t.accessLevel? with
  | some level =>
    refine ((predictive_behindLevel level t.range ts).cons _ fun us => ?_).imp ?_
    · rw [accessModifier, ht]
      rcases us with _ | ⟨u, us⟩ <;> rfl
    · rintro _ ⟨_, rfl, setter, rfl⟩
      exact ⟨some ⟨⟨t, level, ht⟩, setter⟩, rfl⟩
  | none =>
    refine .of_done none (fun us hus => ?_) ⟨none, rfl⟩
    obtain ⟨vs, rfl⟩ := eq_cons_of_head? hus
    rw [accessModifier, ht]

theorem predictive_declarationHead (terminals : List Terminal) :
    Predictive declarationHead
      (Followed (fun us => ∃ trees : List AttributeTree, us = trees.flatMap AttributeTree.yield)
        fun us => ∃ modifier : Option ModifierTree, us = (modifier.map ModifierTree.yield).getD [])
      terminals :=
  (predictive_attributes terminals).andThen (.of_phrase ⟨none, rfl⟩) fun as rest _ =>
    (predictive_accessModifier rest).map (DeclarationHead.mk as)

/-! ## Bodies -/

/-- What stands behind the opening brace of an enumeration. -/
def IsMembers (us : List Terminal) : Prop :=
  ∃ (members : List MemberTree) (closing : Mark .rightBrace),
    us = members.flatMap MemberTree.yield ++ [closing.terminal]

/-- A body that is yet empty can be closed at once. -/
theorem viable_members : Viable IsMembers [] :=
  @Viable.of_fresh _ (.punctuator .rightBrace) rfl fun _ => ⟨[], ⟨_, rfl⟩, rfl⟩

theorem IsMembers.cons {us : List Terminal} (h : IsMembers us) (member : MemberTree) :
    IsMembers (member.yield ++ us) := by
  obtain ⟨members, closing, rfl⟩ := h
  exact ⟨member :: members, closing, by rw [List.flatMap_cons, List.append_assoc]⟩

/-- A `case` wants elements behind it, and other members may follow. -/
theorem enumBody_of_case (ht : t.isKeyword "case" = true) (ts : List Terminal) :
    enumBody (t :: ts) = (enumCase t.token ts).andThen fun clause rest =>
      (enumBody rest).map fun (cases, close) => (clause :: cases, close) := by
  have hclose := isPunctuator_of_isKeyword ht .rightBrace
  cases hread : enumCase t.token ts with
  | done clause rest => exact enumBody_of_done hclose ht hread
  | failed cause rest => exact enumBody_of_failed hclose ht hread

/-- **A body is predictive**, member by member. -/
theorem predictive_enumBody (terminals : List Terminal) :
    Predictive enumBody IsMembers terminals := by
  induction hn : terminals.length using Nat.strongRecOn generalizing terminals with
  | _ n ih =>
    subst hn
    rcases terminals with _ | ⟨t, ts⟩
    · refine .of_unexpected .caseOrClose (fun us hus => ?_) viable_members
      rw [eq_nil_of_head? hus, enumBody]
    by_cases hclose : t.isPunctuator .rightBrace = true
    · refine (Predictive.cons (.done ([], t.token)) (p := (· = []))
        (fun us => enumBody_of_close hclose) (.of_done _ (fun _ _ => rfl) rfl)).imp ?_
      rintro _ ⟨_, rfl, rfl⟩
      exact ⟨[], ⟨t, hclose⟩, rfl⟩
    by_cases hcase : t.isKeyword "case" = true
    · have helements := (@predictive_names .comma .elementName .elementName ts).map fun elements =>
        EnumCase.mk elements.toList (t.token.range.through elements.last.range)
      have hinner := helements.andThen viable_members fun clause rest hread =>
        (ih rest.length (Nat.lt_succ_of_lt (length_lt_of_enumCase hread)) rest rfl).map
          fun (cases, close) => (clause :: cases, close)
      refine (hinner.cons _ (enumBody_of_case hcase)).imp ?_
      rintro _ ⟨_, rfl, _, _, rfl, ⟨elements, rfl⟩, hmembers⟩
      exact hmembers.cons (.clause ⟨⟨t, hcase⟩, elements⟩)
    by_cases hsemicolon : t.isPunctuator .semicolon = true
    · refine ((ih ts.length (Nat.lt_succ_self _) ts rfl).cons _ fun us => ?_).imp ?_
      · rw [enumBody, if_neg hclose, if_neg hcase, if_pos hsemicolon]
      · rintro _ ⟨_, rfl, hmembers⟩
        exact hmembers.cons (.semicolon ⟨t, hsemicolon⟩)
    · refine .of_unexpected .caseOrClose (fun us hus => ?_) viable_members
      obtain ⟨vs, rfl⟩ := eq_cons_of_head? hus
      rw [enumBody, if_neg hclose, if_neg hcase, if_neg hsemicolon]

theorem predictive_openBrace (terminals : List Terminal) :
    Predictive (token .openBrace (·.isPunctuator .leftBrace))
      (fun us => ∃ u, u.isPunctuator .leftBrace = true ∧ us = [u]) terminals :=
  predictive_token (.punctuator .leftBrace) rfl (fun _ => rfl) terminals

theorem predictive_enumeration (terminals : List Terminal) :
    Predictive enumeration
      (Followed (fun us => ∃ leaf : NameLeaf, us = [leaf.terminal])
        (Followed (fun us => ∃ u, u.isPunctuator .leftBrace = true ∧ us = [u]) IsMembers))
      terminals := by
  have hbrace := (viable_punctuator .leftBrace).followed_left viable_members
  refine (predictive_name .enumName terminals).andThen hbrace fun n rest _ => ?_
  refine (predictive_openBrace rest).andThen viable_members fun _ rest _ => ?_
  exact (predictive_enumBody rest).map fun (cases, close) =>
    (DeclarationBody.enumeration n.text cases, close.range)

/-- What is declared can always be added, for there is an import. -/
theorem viable_body : Viable (fun us => ∃ tree : BodyTree, us = tree.yield) [] := by
  intro leading
  let keyword : Word "import" := ⟨fresh leading (.keyword ⟨"import", .declaration⟩), rfl⟩
  let tree : ImportTree := ⟨keyword, ⟨freshName leading, []⟩⟩
  have hfresh : AreFresh leading tree.yield :=
    (areFresh_singleton leading rfl).append (areFresh_singleton leading rfl)
  exact ⟨tree.yield, hfresh, .importing tree, rfl⟩

/-- The keyword decides what is declared. -/
theorem predictive_declarationAfter (head : DeclarationHead) (terminals : List Terminal) :
    Predictive (declarationAfter head) (fun us => ∃ tree : BodyTree, us = tree.yield)
      terminals := by
  rcases terminals with _ | ⟨t, ts⟩
  · refine .of_unexpected .declaration (fun us hus => ?_) viable_body
    rw [eq_nil_of_head? hus]
    rfl
  by_cases henum : t.isKeyword "enum" = true
  · refine (((predictive_enumeration ts).map (head.declare t)).cons _ fun us => if_pos henum).imp ?_
    rintro _ ⟨_, rfl, _, _, rfl, ⟨leaf, rfl⟩, _, _, rfl, ⟨brace, hbrace, rfl⟩, members, closing,
      rfl⟩
    exact ⟨.enumeration ⟨⟨t, henum⟩, leaf, ⟨brace, hbrace⟩, members, closing⟩, rfl⟩
  by_cases himport : t.isKeyword "import" = true
  · have hpath := (@predictive_names .period .importName .pathSegment ts).map fun path =>
      (DeclarationBody.importing (path.toList.map (·.text)), path.last.range)
    refine ((hpath.map (head.declare t)).cons _ fun us =>
      (if_neg henum).trans (if_pos himport)).imp ?_
    rintro _ ⟨_, rfl, path, rfl⟩
    exact ⟨.importing ⟨⟨t, himport⟩, path⟩, rfl⟩
  · refine .of_unexpected .declaration (fun us hus => ?_) viable_body
    obtain ⟨vs, rfl⟩ := eq_cons_of_head? hus
    exact (if_neg henum).trans (if_neg himport)

/-! ## Declarations -/

/-- A declaration is a head and what is declared behind it. -/
theorem reading_declaration (terminals : List Terminal) :
    (declaration terminals).reading = (declarationHead terminals).andThen declarationAfter := by
  rw [declaration]
  rcases declarationHead terminals with ⟨head, rest⟩ | ⟨cause, rest⟩ <;> rfl

/-- **The rule for declarations is predictive.** -/
theorem predictive_declaration (terminals : List Terminal) :
    Predictive (fun us => (declaration us).reading)
      (fun us => ∃ tree : DeclarationTree, us = tree.yield) terminals := by
  have h := (predictive_declarationHead terminals).andThen viable_body fun head rest _ =>
    predictive_declarationAfter head rest
  rw [← funext reading_declaration] at h
  refine h.imp ?_
  rintro _ ⟨_, _, rfl, ⟨_, _, rfl, ⟨attributes, rfl⟩, modifier, rfl⟩, body, rfl⟩
  exact ⟨⟨attributes, modifier, body⟩, rfl⟩

end Grammar

end DeclFront
