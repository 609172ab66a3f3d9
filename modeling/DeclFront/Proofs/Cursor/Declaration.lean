import DeclFront.Proofs.Cursor.Head
import DeclFront.Proofs.Grammar.Loop

/-!
# Proofs/Cursor/Declaration — declarations and whole parses, read at a cursor

The rest of the rules as operations on a cursor, up to the loop over a whole stream.  When a
declaration fails, the parser tells by the index it has started at whether anything has been taken,
where the terminals tell by their number (`reads_synchronize`, `resume_eq`).
-/

namespace DeclFront.Cursor

open Walk

variable {c : Cursor} {t : Token}

/-! ## Bodies -/

/-- A `case` clause whose keyword has been read. -/
def enumCase (keyword : Token) (c : Cursor) : Walk c EnumCase :=
  (names .comma .elementName .elementName c).map fun elements =>
    ⟨elements.toList, keyword.range.through elements.last.range⟩

theorem reads_enumCase (hc : c.IsRegular) (keyword : Token) :
    (enumCase keyword c).Reads (Grammar.enumCase keyword c.terminals) :=
  (reads_names hc _ _ _).map _

/-- The body of an enumeration behind its opening brace: the cases and the closing brace. -/
def enumBody (c : Cursor) : Walk c (List EnumCase × Token) :=
  ifNext c (·.isPunctuator .rightBrace) (fun close _ => done c.next ([], close)) <|
  ifNext c (·.isKeyword "case")
    (fun keyword _ => (enumCase keyword c.next).andThen fun clause d _ =>
      (enumBody d).map fun (cases, close) => (clause :: cases, close)) <|
  ifNext c (·.isPunctuator .semicolon) (fun _ _ => enumBody c.next) <|
  unexpected c .caseOrClose
termination_by c.left

/-- A body is read member by member; a failure leaves the cursor at the token that is no member. -/
theorem reads_enumBody (hc : c.IsRegular) :
    (enumBody c).Reads (Grammar.enumBody c.terminals) := by
  induction c, hc using regular_induction with
  | step c hc ih =>
    have hnext := isRegular_next c
    rw [enumBody]
    refine Reads.ifNext hc Grammar.enumBody ?_ fun hclose =>
      Reads.ifNext hc Grammar.enumBody ?_ fun hcase =>
        Reads.ifNext hc Grammar.enumBody ?_ fun hsemicolon => ?_
    · intro t _ _ ht
      rw [Grammar.enumBody_of_close ht]
      exact .done _ _
    · intro t hlt _ ht
      rw [Grammar.enumBody_of_case ht]
      refine (reads_enumCase hnext t.token).andThen fun clause _ => ?_
      have hleft := Nat.lt_of_le_of_lt (enumCase t.token c.next).advances.left_le hlt
      exact (ih _ ((enumCase t.token c.next).isRegular hnext) hleft).map _
    · intro t hlt hts ht
      have hclose' : t.isPunctuator .rightBrace = false := hclose t (by rw [hts]; rfl)
      have hcase' : t.isKeyword "case" = false := hcase t (by rw [hts]; rfl)
      have ht' : t.isPunctuator .semicolon = true := ht
      rw [Grammar.enumBody, if_neg (by simp [hclose']), if_neg (by simp [hcase']), if_pos ht']
      exact ih _ hnext hlt
    · refine (Reads.unexpected hc .caseOrClose).of_head? (by rw [Grammar.enumBody])
        fun t ht ts => ?_
      have hclose' : t.isPunctuator .rightBrace = false := hclose t ht
      have hcase' : t.isKeyword "case" = false := hcase t ht
      have hsemicolon' : t.isPunctuator .semicolon = false := hsemicolon t ht
      simp only [Grammar.enumBody, hclose', hcase', hsemicolon', Bool.false_eq_true, if_false]

/-- An enumeration whose keyword has been read, with the range of its last token. -/
def enumeration (c : Cursor) : Walk c (DeclarationBody × Range) :=
  (name .enumName c).andThen fun name d _ =>
    (token .openBrace (·.isPunctuator .leftBrace) d).andThen fun _ e _ =>
      (enumBody e).map fun (cases, close) => (.enumeration name.text cases, close.range)

theorem reads_enumeration (hc : c.IsRegular) :
    (enumeration c).Reads (Grammar.enumeration c.terminals) := by
  refine (reads_name hc _).andThen fun n _ => ?_
  have hname := (name .enumName c).isRegular hc
  refine (reads_token hname .openBrace (·.isPunctuator .leftBrace)).andThen fun _ _ => ?_
  exact (reads_enumBody ((token _ _ _).isRegular hname)).map _

/-- An import whose keyword has been read, with the range of its last token. -/
def importing (c : Cursor) : Walk c (DeclarationBody × Range) :=
  (names .period .importName .pathSegment c).map fun path =>
    (.importing (path.toList.map (·.text)), path.last.range)

theorem reads_importing (hc : c.IsRegular) :
    (importing c).Reads (Grammar.importing c.terminals) :=
  (reads_names hc _ _ _).map _

/-! ## Declarations -/

/-- A declaration whose head has been read. -/
def declarationAfter (head : Grammar.DeclarationHead) (c : Cursor) : Walk c Declaration :=
  ifNext c (·.isKeyword "enum") (fun k _ => (enumeration c.next).map (head.declare ⟨[], k⟩)) <|
  ifNext c (·.isKeyword "import") (fun k _ => (importing c.next).map (head.declare ⟨[], k⟩)) <|
  unexpected c .declaration

theorem reads_declarationAfter (hc : c.IsRegular) (head : Grammar.DeclarationHead) :
    (declarationAfter head c).Reads (Grammar.declarationAfter head c.terminals) := by
  refine Reads.ifNext hc (Grammar.declarationAfter head) ?_ fun henum =>
    Reads.ifNext hc (Grammar.declarationAfter head) ?_ fun himport => ?_
  · intro t _ _ ht
    have ht' : t.isKeyword "enum" = true := ht
    rw [Grammar.declarationAfter, if_pos ht']
    exact (reads_enumeration (isRegular_next c)).map _
  · intro t _ hts ht
    have henum' : t.isKeyword "enum" = false := henum t (by rw [hts]; rfl)
    have ht' : t.isKeyword "import" = true := ht
    rw [Grammar.declarationAfter, if_neg (by simp [henum']), if_pos ht']
    exact (reads_importing (isRegular_next c)).map _
  · refine (Reads.unexpected hc .declaration).of_head? rfl fun t ht ts => ?_
    have henum' : t.isKeyword "enum" = false := henum t ht
    have himport' : t.isKeyword "import" = false := himport t ht
    rw [Grammar.declarationAfter, if_neg (by simp [henum']), if_neg (by simp [himport'])]

/-- What comes of an attempt at a declaration: the diagnostics on the way, and the walk. -/
structure Attempt (c : Cursor) where
  diagnostics : List Diagnostic
  walk : Walk c Declaration

/-- Reads one declaration. -/
def declaration (c : Cursor) : Attempt c :=
  ⟨match (declarationHead c).result with
    | .ok head => head.diagnostics
    | .error _ => [],
  (declarationHead c).andThen fun head d _ => declarationAfter head d⟩

theorem walk_declaration (c : Cursor) : (declaration c).walk =
    (declarationHead c).andThen fun head d _ => declarationAfter head d := rfl

/-- **A declaration is read at the cursor as by its rule**, with the same diagnostics. -/
theorem reads_declaration (hc : c.IsRegular) :
    (declaration c).diagnostics = (Grammar.declaration c.terminals).diagnostics ∧
      (declaration c).walk.Reads (Grammar.declaration c.terminals).reading := by
  have hhead := reads_declarationHead hc
  constructor
  · simp only [declaration, Grammar.declaration, hhead.result_eq]
    cases Grammar.declarationHead c.terminals <;> rfl
  · rw [walk_declaration, Grammar.reading_declaration]
    exact hhead.andThen fun head _ =>
      reads_declarationAfter ((declarationHead c).isRegular hc) head

/-- What is declared has a keyword, which is taken. -/
theorem taken_ne_nil_of_declarationAfter {head : Grammar.DeclarationHead} {d : Declaration}
    (h : (declarationAfter head c).result = .ok d) : (declarationAfter head c).taken ≠ [] := by
  rw [declarationAfter] at h ⊢
  rcases ifNext_cases c (·.isKeyword "enum") _ _ with ⟨t, hpeek, heq⟩ | heq
  · rw [heq]
    exact List.cons_ne_nil _ _
  rw [heq] at h ⊢
  rcases ifNext_cases c (·.isKeyword "import") _ _ with ⟨t, hpeek, heq⟩ | heq
  · rw [heq]
    exact List.cons_ne_nil _ _
  rw [heq] at h
  cases h

/-- A declaration that is read has taken a token. -/
theorem taken_ne_nil_of_declaration {d : Declaration}
    (h : (declaration c).walk.result = .ok d) : (declaration c).walk.taken ≠ [] := by
  rw [walk_declaration] at h ⊢
  cases hhead : (declarationHead c).result with
  | error cause =>
    rw [andThen_of_error hhead] at h
    cases h
  | ok head =>
    rw [andThen_of_ok hhead] at h ⊢
    exact List.append_ne_nil_of_right_ne_nil _ (taken_ne_nil_of_declarationAfter h)

/-! ## Going on after a failure -/

/-- A declaration can begin with a token of the kind. -/
def startsDeclaration (kind : TokenKind) : Bool :=
  kind.isPunctuator .atSign || kind.accessLevel?.isSome || kind.isKeyword "enum" ||
    kind.isKeyword "import"

/-- Takes the token at the cursor, whatever it is. -/
def take (c : Cursor) : Walk c (Option Token) :=
  onNext c some (fun t _ => done c.next (some t)) (done c none)

/-- Takes tokens up to the next one that can start a declaration while no more braces were opened
than closed. -/
def nextStart (depth : Int) (c : Cursor) : Walk c Unit :=
  ifNext c (·.isPunctuator .leftBrace) (fun _ _ => nextStart (depth + 1) c.next) <|
  ifNext c (·.isPunctuator .rightBrace) (fun _ _ => nextStart (depth - 1) c.next) <|
  ifNext c (fun kind => !(depth ≤ 0 && startsDeclaration kind))
    (fun _ _ => nextStart depth c.next) <|
  done c ()
termination_by c.left

/-- Goes on after the declaration that began at the index `start` has failed. -/
def synchronize (start : Nat) (c : Cursor) : Walk c Unit :=
  if c.position = start then (take c).after (nextStart 0 (take c).cursor) else nextStart 0 c

/-- Taking a token takes its terminal. -/
theorem reads_take (hc : c.IsRegular) :
    (take c).Reads (.done (c.terminals.head?.map Terminal.token) c.terminals.tail) := by
  rw [take]
  cases hpeek : c.peek with
  | none =>
    have hterminals := hc.terminals_eq_nil hpeek
    rw [onNext_of_other (by rw [hpeek]; rfl)]
    exact ⟨by rw [hterminals]; rfl, by rw [hterminals]; exact hterminals⟩
  | some t =>
    have hterminals := hc.terminals_eq_cons hpeek
    rw [onNext_of_found hpeek rfl]
    exact ⟨by rw [hterminals]; rfl, by rw [hterminals]; rfl⟩

/-- The count of braces at the cursor is that of the rule. -/
theorem reads_nextStart (hc : c.IsRegular) (depth : Int) :
    (nextStart depth c).Reads (.done () (Grammar.nextStart depth c.terminals)) := by
  induction c, hc using regular_induction generalizing depth with
  | step c hc ih =>
    have hnext := isRegular_next c
    let spec (ts : List Terminal) : Reading Unit := .done () (Grammar.nextStart depth ts)
    rw [nextStart]
    refine Reads.ifNext hc spec ?_ fun hopen =>
      Reads.ifNext hc spec ?_ fun hclose =>
        Reads.ifNext hc spec ?_ fun hstart => ?_
    · intro t hlt _ ht
      have ht' : t.isPunctuator .leftBrace = true := ht
      simp only [spec, Grammar.nextStart, if_pos ht']
      exact ih _ hnext hlt _
    · intro t hlt hts ht
      have hopen' : t.isPunctuator .leftBrace = false := hopen t (by rw [hts]; rfl)
      have ht' : t.isPunctuator .rightBrace = true := ht
      simp only [spec, Grammar.nextStart, hopen', Bool.false_eq_true, if_false, if_pos ht']
      exact ih _ hnext hlt _
    · intro t hlt hts ht
      have hopen' : t.isPunctuator .leftBrace = false := hopen t (by rw [hts]; rfl)
      have hclose' : t.isPunctuator .rightBrace = false := hclose t (by rw [hts]; rfl)
      rw [Bool.not_eq_true'] at ht
      have ht' : (decide (depth ≤ 0) && t.startsDeclaration) = false := ht
      simp only [spec, Grammar.nextStart, hopen', hclose', ht', Bool.false_eq_true, if_false]
      exact ih _ hnext hlt _
    · refine (Reads.done c ()).of_head? rfl fun t ht ts => ?_
      have hopen' : t.isPunctuator .leftBrace = false := hopen t ht
      have hclose' : t.isPunctuator .rightBrace = false := hclose t ht
      have hstart' : (decide (depth ≤ 0) && t.startsDeclaration) = true := by
        rw [← Bool.not_eq_false']
        exact hstart t ht
      simp only [spec, Grammar.nextStart, hopen', hclose', hstart', Bool.false_eq_true, if_false,
        if_true]

/-- Where the failed declaration has taken nothing, one token is dropped uncounted. -/
theorem reads_synchronize (hc : c.IsRegular) (start : Nat) :
    (synchronize start c).Reads (.done ()
      (Grammar.nextStart 0 (if c.position = start then c.terminals.tail else c.terminals))) := by
  rw [synchronize]
  split
  · have h := reads_nextStart ((take c).isRegular hc) 0
    rw [(reads_take hc).terminals_eq] at h
    exact h.after
  · exact reads_nextStart hc 0

/-- **Terminals and indices tell alike whether a failed declaration has taken anything.** -/
theorem resume_eq {walk : Walk c Declaration} {t : Terminal} {ts : List Terminal}
    (hc : c.IsRegular) (hts : c.terminals = t :: ts) :
    Grammar.resume ts walk.cursor.terminals =
      Grammar.nextStart 0 (if walk.cursor.position = c.position then walk.cursor.terminals.tail
        else walk.cursor.terminals) := by
  obtain ⟨passed, hterminals, htaken, -⟩ := walk.advances.exists_passed hc
  have hposition := walk.advances.position_eq_iff
  rw [Grammar.resume]
  rw [hts] at hterminals
  -- Where nothing was passed `t` is still there, so more terminals are left than `ts`.
  rcases passed with _ | ⟨u, us⟩
  · have hrest : walk.cursor.terminals = t :: ts := hterminals.symm
    have hlength : ¬ (t :: ts).length ≤ ts.length := Nat.not_succ_le_self _
    rw [if_pos (hposition.2 htaken.symm), hrest, if_neg hlength]
    rfl
  · obtain ⟨-, hrest⟩ := List.cons_eq_cons.1 hterminals
    have hlength : walk.cursor.terminals.length ≤ ts.length := by
      rw [hrest]
      exact (List.suffix_append _ _).length_le
    have hne : walk.taken ≠ [] := by
      rw [← htaken]
      exact List.cons_ne_nil _ _
    rw [if_pos hlength, if_neg (mt hposition.1 hne)]

/-! ## The loop -/

/-- What a turn of the loop adds to the outcome, and the walk it takes. -/
structure Turn (c : Cursor) where
  added : Outcome
  walk : Walk c Unit

/-- Takes a semicolon, or tries a declaration and, when that fails, looks for where to go on. -/
def turn (c : Cursor) : Turn c :=
  match c.peek with
  | none => ⟨.empty, done c ()⟩
  | some t =>
    if t.kind.isPunctuator .semicolon then ⟨.empty, (take c).map fun _ => ()⟩
    else
      match (declaration c).walk.result with
      | .ok d =>
        ⟨⟨⟨[d]⟩, ⟨(declaration c).diagnostics⟩, []⟩, (declaration c).walk.map fun _ => ()⟩
      | .error cause =>
        ⟨⟨⟨[]⟩, ⟨(declaration c).diagnostics⟩, [.ofCause c.stream.stop cause]⟩,
          (declaration c).walk.after (synchronize c.position (declaration c).walk.cursor)⟩

theorem left_take_lt (h : c.peek = some t) : (take c).cursor.left < c.left := by
  rw [take, onNext_of_found h rfl]
  exact left_next_lt h

/-- Going on after a failure takes a token, or the failed declaration has. -/
theorem left_synchronize_lt (h : c.peek = some t) (walk : Walk c Declaration) :
    (synchronize c.position walk.cursor).cursor.left < c.left := by
  rw [synchronize]
  split
  · rename_i hposition
    -- The walk took nothing, so the token it failed at is the one taken here.
    have heq : walk.cursor = c := by
      have hadvances := walk.advances
      rw [walk.advances.position_eq_iff.1 hposition] at hadvances
      exact hadvances.eq_of_nil
    rw [heq]
    exact Nat.lt_of_le_of_lt (nextStart 0 (take c).cursor).advances.left_le (left_take_lt h)
  · rename_i hposition
    have hlt := walk.left_lt (mt walk.advances.position_eq_iff.2 hposition)
    exact Nat.lt_of_le_of_lt (nextStart 0 walk.cursor).advances.left_le hlt

/-- Each turn takes a token. -/
theorem left_turn_lt (h : c.peek = some t) : (turn c).walk.cursor.left < c.left := by
  rw [turn, h]
  dsimp only
  split
  · exact left_take_lt h
  · split
    · rename_i d hresult
      exact (declaration c).walk.left_lt (taken_ne_nil_of_declaration hresult)
    · exact left_synchronize_lt h _

/-- At the end of the tokens a turn adds nothing. -/
theorem reads_turn_of_end (hc : c.IsRegular) (hts : c.terminals = []) :
    (turn c).walk.Reads (.done () []) ∧ (turn c).added = .empty := by
  have hpeek : c.peek = none := hc.peek_eq_none hts
  have hread := Reads.done c ()
  rw [hts] at hread
  rw [turn, hpeek]
  exact ⟨hread, rfl⟩

/-- **A turn at the cursor adds what the turn of the rule does** and stops at the same terminal. -/
theorem reads_turn {t : Terminal} {ts : List Terminal} (hc : c.IsRegular)
    (hts : c.terminals = t :: ts) :
    (turn c).added = (Grammar.turn c.stream.stop t ts).added ∧
      (turn c).walk.Reads (.done () (Grammar.turn c.stream.stop t ts).rest) := by
  have hsemicolon : t.token.kind.isPunctuator .semicolon = t.isPunctuator .semicolon := rfl
  rw [turn, hc.peek_of_terminals hts]
  simp only [hsemicolon]
  cases hs : t.isPunctuator .semicolon with
  | true =>
    have hread := (reads_take hc).map fun _ => ()
    rw [hts] at hread
    rw [if_pos rfl, Grammar.turn_of_semicolon hs]
    exact ⟨rfl, hread⟩
  | false =>
    obtain ⟨hdiagnostics, hread⟩ := reads_declaration hc
    rw [hts] at hdiagnostics hread
    rw [if_neg (by simp), hdiagnostics]
    cases hr : (Grammar.declaration (t :: ts)).reading with
    | done d rest =>
      rw [hr] at hread
      have hresult : (declaration c).walk.result = .ok d := hread.result_eq
      rw [Grammar.turn_of_done hs hr]
      simp only [hresult]
      exact ⟨trivial, hread.map _⟩
    | failed cause rest =>
      rw [hr] at hread
      have hresult : (declaration c).walk.result = .error cause := hread.result_eq
      have hrest : (declaration c).walk.cursor.terminals = rest := hread.terminals_eq
      have hgo := reads_synchronize ((declaration c).walk.isRegular hc) c.position
      rw [← resume_eq hc hts, hrest] at hgo
      rw [Grammar.turn_of_failed hs hr]
      simp only [hresult]
      exact ⟨trivial, hgo.after⟩

/-- Takes turn after turn up to the end of the tokens. -/
def declarations (added : Outcome) (c : Cursor) : Walk c Outcome :=
  match _h : c.peek with
  | none => done c added
  | some _ =>
    (turn c).walk.after (declarations (added.followedBy (turn c).added) (turn c).walk.cursor)
termination_by c.left
decreasing_by exact left_turn_lt _h

/-- **The loop at the cursor gives what the rule does**, and goes to the end. -/
theorem reads_declarations (hc : c.IsRegular) (added : Outcome) :
    (declarations added c).Reads
      (.done (added.followedBy (Grammar.declarations c.stream.stop c.terminals)) []) := by
  induction c, hc using regular_induction generalizing added with
  | step c hc ih =>
    rw [declarations]
    split
    · rename_i hpeek
      have hread := Reads.done c added
      have hterminals := hc.terminals_eq_nil hpeek
      rw [hterminals] at hread ⊢
      rwa [Grammar.declarations, Outcome.followedBy_empty]
    · rename_i t hpeek
      have hterminals := hc.terminals_eq_cons hpeek
      obtain ⟨hadded, hturn⟩ := reads_turn hc hterminals
      have hread := ih _ ((turn c).walk.isRegular hc) (left_turn_lt hpeek)
        (added.followedBy (turn c).added)
      rw [(turn c).walk.advances.stream_eq, hturn.terminals_eq, hadded,
        Outcome.followedBy_assoc] at hread
      rw [hterminals, Grammar.declarations_cons, hadded]
      exact hread.after

end DeclFront.Cursor
