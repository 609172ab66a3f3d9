import DeclFront.Diagnostic.Basic
import DeclFront.Grammar.Reading

/-!
# Grammar/Head — attributes and the access modifier

The head of a declaration is what stands before its keyword: attributes and at most one access
modifier.

* An attribute is `@` and a name, and a clause of arguments when an opening parenthesis is adjacent
  to the name. The clause runs to the parenthesis that balances it and is kept as it is written.
* An access modifier is `public`, `internal` or `private`. With `(set)` after it, it is read but
  rejected: the declaration keeps its implied access and the rejection is diagnosed.
-/

namespace DeclFront.Grammar

/-! ## Attributes -/

/-- The arguments of an attribute behind the opening parenthesis: what stands inside, the closing
parenthesis, and the terminals after it. -/
structure ArgumentClause where
  inner : List Terminal
  closing : Terminal
  rest : List Terminal

namespace ArgumentClause

/-- The clause with one more terminal inside, at the front. -/
def cons (t : Terminal) (clause : ArgumentClause) : ArgumentClause :=
  ⟨t :: clause.inner, clause.closing, clause.rest⟩

/-- The rest of a clause with so many parentheses open. It ends where the count of open parentheses
comes to zero; parentheses inside strings and comments are no tokens and do not count. -/
def read : (depth : Nat) → List Terminal → Option ArgumentClause
  | _, [] => none
  | depth, t :: ts =>
    if t.isPunctuator .leftParen then (read (depth + 1) ts).map (cons t)
    else if t.isPunctuator .rightParen then
      if depth - 1 = 0 then some ⟨[], t, ts⟩ else (read (depth - 1) ts).map (cons t)
    else (read depth ts).map (cons t)

/-- The clause as it is written, with the parenthesis that opens it. -/
def text (opening : Token) (clause : ArgumentClause) : String :=
  opening.spelling ++ String.join (clause.inner.map Terminal.spelling) ++ clause.closing.spelling

/-- What is left behind a clause is shorter by the closing parenthesis at least. -/
theorem length_lt_of_read {depth : Nat} {terminals : List Terminal} {clause : ArgumentClause}
    (h : read depth terminals = some clause) : clause.rest.length < terminals.length := by
  induction terminals generalizing depth clause with
  | nil => cases h
  | cons t ts ih =>
    have step {d : Nat} (h : (read d ts).map (cons t) = some clause) :
        clause.rest.length < (t :: ts).length := by
      obtain ⟨inner, hinner, hclause⟩ := Option.map_eq_some_iff.1 h
      subst hclause
      exact Nat.lt_succ_of_lt (@ih d inner hinner)
    rw [read] at h
    split at h
    · exact step h
    · split at h
      · split at h
        · cases h
          exact Nat.lt_succ_self _
        · exact step h
      · exact step h

end ArgumentClause

/-- An attribute whose `@` has been read. -/
def attributeAfterSign (sign : Token) (terminals : List Terminal) : Reading Attribute :=
  (name .attributeName terminals).andThen fun name rest =>
    match rest with
    | [] => .done ⟨name.text, none, sign.range.through name.range⟩ []
    | t :: ts =>
      if t.isAdjacent && t.isPunctuator .leftParen then
        match ArgumentClause.read 1 ts with
        | some clause =>
          .done ⟨name.text, some (clause.text t.token), sign.range.through clause.closing.range⟩
            clause.rest
        | none => .failed (.unclosedArguments t.token) []
      else .done ⟨name.text, none, sign.range.through name.range⟩ (t :: ts)

theorem length_lt_of_attributeAfterSign {sign : Token} {terminals rest : List Terminal}
    {a : Attribute} (h : attributeAfterSign sign terminals = .done a rest) :
    rest.length < terminals.length := by
  obtain ⟨n, middle, hname, h⟩ := Reading.andThen_eq_done_iff.1 h
  have := length_lt_of_name hname
  split at h
  · cases h
    exact this
  · split at h
    · split at h
      · rename_i clause hclause
        cases h
        have := ArgumentClause.length_lt_of_read hclause
        simp only [List.length_cons] at *
        omega
      · cases h
    · cases h
      exact this

/-- As many attributes as there are. -/
def attributes : List Terminal → Reading (List Attribute)
  | [] => .done [] []
  | t :: ts =>
    if t.isPunctuator .atSign then
      match _h : attributeAfterSign t.token ts with
      | .done a rest => (attributes rest).map (a :: ·)
      | .failed cause rest => .failed cause rest
    else .done [] (t :: ts)
termination_by terminals => terminals.length
decreasing_by exact Nat.lt_succ_of_lt (length_lt_of_attributeAfterSign _h)

/-- Behind an attribute, others are looked for. -/
theorem attributes_of_done {t : Terminal} {ts rest : List Terminal} {a : Attribute}
    (ht : t.isPunctuator .atSign = true) (h : attributeAfterSign t.token ts = .done a rest) :
    attributes (t :: ts) = (attributes rest).map (a :: ·) := by
  simp only [attributes, ht, if_true]
  split <;> simp_all

/-- An attribute that fails ends the list, and what was read of it is not given back. -/
theorem attributes_of_failed {t : Terminal} {ts rest : List Terminal} {cause : Cause}
    (ht : t.isPunctuator .atSign = true) (h : attributeAfterSign t.token ts = .failed cause rest) :
    attributes (t :: ts) = .failed cause rest := by
  simp only [attributes, ht, if_true]
  split <;> simp_all

/-- Without a sign there is no attribute, and nothing is taken. -/
theorem attributes_of_other {t : Terminal} {ts : List Terminal}
    (ht : t.isPunctuator .atSign = false) : attributes (t :: ts) = .done [] (t :: ts) := by
  simp only [attributes, ht, Bool.false_eq_true, if_false]

theorem length_le_of_attributes {terminals rest : List Terminal} {as : List Attribute}
    (h : attributes terminals = .done as rest) : rest.length ≤ terminals.length := by
  fun_induction attributes terminals generalizing as with
  | case1 => cases h; exact Nat.le_refl _
  | case2 t ts ht a middle hattribute ih =>
    obtain ⟨tail, htail, -⟩ := Reading.map_eq_done_iff.1 h
    have := ih htail
    have := length_lt_of_attributeAfterSign hattribute
    simp only [List.length_cons]
    omega
  | case3 => cases h
  | case4 => cases h; exact Nat.le_refl _

/-! ## The access modifier -/

/-- An access modifier as it is written. -/
structure AccessModifier where
  level : AccessLevel
  /-- The modifier has `(set)` after its keyword. -/
  settersOnly : Bool
  range : Range
deriving DecidableEq, Repr

namespace AccessModifier

/-- The access level that the modifier gives a declaration. -/
def access (m : AccessModifier) : AccessLevel := if m.settersOnly then .implied else m.level

/-- What is to be said against the modifier. -/
def diagnostics (m : AccessModifier) : List Diagnostic :=
  if m.settersOnly then
    [⟨.error, "'" ++ m.level.text ++ "' modifier cannot be applied to this declaration.", m.range⟩]
  else []

end AccessModifier

/-- The access modifier, if there is one. A parenthesis after its keyword has to open `(set)`. -/
def accessModifier : List Terminal → Reading (Option AccessModifier)
  | [] => .done none []
  | t :: ts =>
    match t.accessLevel? with
    | none => .done none (t :: ts)
    | some level =>
      match ts with
      | [] => .done (some ⟨level, false, t.range⟩) []
      | u :: us =>
        if u.isPunctuator .leftParen then
          (token (.setKeyword level) (·.isKeyword "set") us).andThen fun _ rest =>
            (token .closeAfterSet (·.isPunctuator .rightParen) rest).map fun close =>
              some ⟨level, true, t.range.through close.range⟩
        else .done (some ⟨level, false, t.range⟩) (u :: us)

theorem length_le_of_accessModifier {terminals rest : List Terminal} {m : Option AccessModifier}
    (h : accessModifier terminals = .done m rest) : rest.length ≤ terminals.length := by
  unfold accessModifier at h
  split at h
  · cases h
    exact Nat.le_refl _
  · split at h
    · cases h
      exact Nat.le_refl _
    · split at h
      · cases h
        exact Nat.zero_le _
      · split at h
        · obtain ⟨s, middle, hset, h⟩ := Reading.andThen_eq_done_iff.1 h
          obtain ⟨close, hclose, -⟩ := Reading.map_eq_done_iff.1 h
          have := length_lt_of_token hset
          have := length_lt_of_token hclose
          simp only [List.length_cons]
          omega
        · cases h
          exact Nat.le_succ _

/-! ## The head as a whole -/

/-- What stands before the keyword of a declaration. -/
structure DeclarationHead where
  attributes : List Attribute
  modifier : Option AccessModifier

namespace DeclarationHead

/-- The access level that the modifier leaves. -/
def access (head : DeclarationHead) : AccessLevel :=
  (head.modifier.map AccessModifier.access).getD .implied

/-- What there is to say about the modifier. -/
def diagnostics (head : DeclarationHead) : List Diagnostic :=
  head.modifier.toList.flatMap AccessModifier.diagnostics

/-- The range of the first thing in the head. -/
def firstRange? (head : DeclarationHead) : Option Range :=
  (head.attributes.head?.map Attribute.range).or (head.modifier.map AccessModifier.range)

end DeclarationHead

/-- The attributes and the access modifier of a declaration. -/
def declarationHead (terminals : List Terminal) : Reading DeclarationHead :=
  (attributes terminals).andThen fun attributes rest =>
    (accessModifier rest).map (⟨attributes, ·⟩)

theorem length_le_of_declarationHead {terminals rest : List Terminal} {head : DeclarationHead}
    (h : declarationHead terminals = .done head rest) : rest.length ≤ terminals.length := by
  obtain ⟨as, middle, hattributes, h⟩ := Reading.andThen_eq_done_iff.1 h
  obtain ⟨m, hmodifier, -⟩ := Reading.map_eq_done_iff.1 h
  exact Nat.le_trans (length_le_of_accessModifier hmodifier) (length_le_of_attributes hattributes)

end DeclFront.Grammar
