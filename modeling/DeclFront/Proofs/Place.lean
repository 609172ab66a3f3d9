import DeclFront.Proofs.Cursor.Declaration

/-!
# Proofs/Place — the parser never loses its place

    start ──operation──▸ c ──operation──▸ …      the tokens taken, in order

Whatever operations follow each other from the start of a stream, and whether they succeed or fail,
they amount to calls of `advance` (`reachable_iff_advances`).  So in every state the tokens taken
are the significant ones in front of the cursor, and each operation reads what its rule of the
grammar makes of the terminals behind them (`Operation.reads`).  In particular a parse that runs on
indices is the parse (`TokenStream.parse`), and takes each significant token once.
-/

namespace DeclFront

namespace Cursor

variable {s : TokenStream} {c d : Cursor} {taken more : List Token} {α : Type}

/-! ## Operations -/

/-- What can be done at a cursor, with the type of its value. -/
inductive Operation : Type → Type 1 where
  /-- Takes the token at the cursor, whatever it is. -/
  | take : Operation (Option Token)
  | tokenIf (accepts : TokenKind → Bool) : Operation (Option Token)
  | token (wanted : Expectation) (accepts : TokenKind → Bool) : Operation Token
  | name (wanted : Expectation) : Operation Name
  | furtherNames (separator : Punctuator) (wanted : Expectation) : Operation (List Name)
  | names (separator : Punctuator) (wantedFirst wantedNext : Expectation) : Operation Grammar.Names
  | closeArguments (opening : Token) (depth : Nat) : Operation Unit
  | arguments : Operation (Option (String × Range))
  | attributeAfterSign (sign : Token) : Operation Attribute
  | attributes : Operation (List Attribute)
  | behindLevel (level : AccessLevel) (r : Range) : Operation (Option Grammar.AccessModifier)
  | accessModifier : Operation (Option Grammar.AccessModifier)
  | declarationHead : Operation Grammar.DeclarationHead
  | enumCase (keyword : Token) : Operation EnumCase
  | enumBody : Operation (List EnumCase × Token)
  | enumeration : Operation (DeclarationBody × Range)
  | importing : Operation (DeclarationBody × Range)
  | declarationAfter (head : Grammar.DeclarationHead) : Operation Declaration
  | declaration : Operation Declaration
  | nextStart (depth : Int) : Operation Unit
  /-- Goes on after the declaration that began at the index `start` has failed. -/
  | synchronize (start : Nat) : Operation Unit
  | turn : Operation Outcome
  /-- All turns up to the end of the tokens, behind what has come of others. -/
  | declarations (added : Outcome) : Operation Outcome

namespace Operation

/-- What an operation makes of a cursor. -/
def walk : {α : Type} → Operation α → (c : Cursor) → Walk c α
  | _, take, c => c.take
  | _, tokenIf accepts, c => c.tokenIf accepts
  | _, token wanted accepts, c => c.token wanted accepts
  | _, name wanted, c => c.name wanted
  | _, furtherNames separator wanted, c => c.furtherNames separator wanted
  | _, names separator wantedFirst wantedNext, c => c.names separator wantedFirst wantedNext
  | _, closeArguments opening depth, c => c.closeArguments opening depth
  | _, arguments, c => c.arguments
  | _, attributeAfterSign sign, c => c.attributeAfterSign sign
  | _, attributes, c => c.attributes
  | _, behindLevel level r, c => c.behindLevel level r
  | _, accessModifier, c => c.accessModifier
  | _, declarationHead, c => c.declarationHead
  | _, enumCase keyword, c => c.enumCase keyword
  | _, enumBody, c => c.enumBody
  | _, enumeration, c => c.enumeration
  | _, importing, c => c.importing
  | _, declarationAfter head, c => c.declarationAfter head
  | _, declaration, c => c.declaration.walk
  | _, nextStart depth, c => c.nextStart depth
  | _, synchronize start, c => c.synchronize start
  | _, turn, c => c.turn.walk.map fun _ => c.turn.added
  | _, declarations added, c => c.declarations added

/-- What the rule of an operation makes of the terminals behind the token taken last. -/
def reading : {α : Type} → Operation α → Cursor → Reading α
  | _, take, c => .done (c.terminals.head?.map Terminal.token) c.terminals.tail
  | _, tokenIf accepts, c => firstIf accepts c.terminals
  | _, token wanted accepts, c =>
    Grammar.token wanted (fun t => accepts t.token.kind) c.terminals
  | _, name wanted, c => Grammar.name wanted c.terminals
  | _, furtherNames separator wanted, c => Grammar.furtherNames separator wanted c.terminals
  | _, names separator wantedFirst wantedNext, c =>
    Grammar.names separator wantedFirst wantedNext c.terminals
  | _, closeArguments opening depth, c =>
    closing opening (Grammar.ArgumentClause.read depth c.terminals)
  | _, arguments, c =>
    if c.previous = none then .done none c.terminals else argumentClause c.terminals
  | _, attributeAfterSign sign, c => Grammar.attributeAfterSign sign c.terminals
  | _, attributes, c => Grammar.attributes c.terminals
  | _, behindLevel level r, c => Grammar.behindLevel level r c.terminals
  | _, accessModifier, c => Grammar.accessModifier c.terminals
  | _, declarationHead, c => Grammar.declarationHead c.terminals
  | _, enumCase keyword, c => Grammar.enumCase keyword c.terminals
  | _, enumBody, c => Grammar.enumBody c.terminals
  | _, enumeration, c => Grammar.enumeration c.terminals
  | _, importing, c => Grammar.importing c.terminals
  | _, declarationAfter head, c => Grammar.declarationAfter head c.terminals
  | _, declaration, c => (Grammar.declaration c.terminals).reading
  | _, nextStart depth, c => .done () (Grammar.nextStart depth c.terminals)
  | _, synchronize start, c =>
    .done () (Grammar.nextStart 0
      (if c.position = start then c.terminals.tail else c.terminals))
  | _, turn, c =>
    match c.terminals with
    | [] => .done .empty []
    | t :: ts =>
      .done (Grammar.turn c.stream.stop t ts).added (Grammar.turn c.stream.stop t ts).rest
  | _, declarations added, c =>
    .done (added.followedBy (Grammar.declarations c.stream.stop c.terminals)) []

/-- **Each operation reads what its rule does.** -/
theorem reads (hc : c.IsRegular) (op : Operation α) : (op.walk c).Reads (op.reading c) := by
  cases op with
  | take => exact reads_take hc
  | tokenIf accepts => exact reads_tokenIf hc accepts
  | token wanted accepts => exact reads_token hc wanted accepts
  | name wanted => exact reads_name hc wanted
  | furtherNames separator wanted => exact reads_furtherNames hc separator wanted
  | names separator wantedFirst wantedNext =>
    exact reads_names hc separator wantedFirst wantedNext
  | closeArguments opening depth => exact reads_closeArguments hc opening depth
  | arguments =>
    -- Adjacency is to the token taken last, and there is none at the start of a stream.
    rw [reading]
    split
    · exact reads_arguments_of_first ‹_›
    · exact reads_arguments hc ‹_›
  | attributeAfterSign sign => exact reads_attributeAfterSign hc sign
  | attributes => exact reads_attributes hc
  | behindLevel level r => exact reads_behindLevel hc level r
  | accessModifier => exact reads_accessModifier hc
  | declarationHead => exact reads_declarationHead hc
  | enumCase keyword => exact reads_enumCase hc keyword
  | enumBody => exact reads_enumBody hc
  | enumeration => exact reads_enumeration hc
  | importing => exact reads_importing hc
  | declarationAfter head => exact reads_declarationAfter hc head
  | declaration => exact (reads_declaration hc).2
  | nextStart depth => exact reads_nextStart hc depth
  | synchronize start => exact reads_synchronize hc start
  | turn =>
    rw [reading]
    split
    · rename_i hts
      obtain ⟨hread, hadded⟩ := reads_turn_of_end hc hts
      rw [← hadded]
      exact hread.map _
    · rename_i t ts hts
      obtain ⟨hadded, hread⟩ := reads_turn hc hts
      rw [← hadded]
      exact hread.map _
  | declarations added => exact reads_declarations hc added

end Operation

/-! ## Reachable states -/

/-- From the start of a stream to a cursor, by any operations one after another.  `taken` are the
tokens that `advance` has returned on the way. -/
inductive Reachable (s : TokenStream) : (taken : List Token) → Cursor → Prop where
  | start : Reachable s [] (.start s)
  | step {taken : List Token} {c : Cursor} {α : Type} (h : Reachable s taken c)
      (op : Operation α) : Reachable s (taken ++ (op.walk c).taken) (op.walk c).cursor

/-- What calls of `advance` come to is reachable, one token at a time. -/
theorem Reachable.of_advances (h : Reachable s taken c) (hmore : c.Advances more d) :
    Reachable s (taken ++ more) d := by
  induction hmore generalizing taken with
  | refl => rwa [List.append_nil]
  | @step c _ _ t more first _ ih =>
    obtain ⟨hpeek, rfl⟩ := advance_eq_some_iff.1 first
    have htake : (Operation.take.walk c).taken = [t] ∧ (Operation.take.walk c).cursor = c.next := by
      rw [Operation.walk, take, Walk.onNext_of_found hpeek rfl]
      exact ⟨rfl, rfl⟩
    have hnext := ih (htake.1 ▸ htake.2 ▸ h.step .take)
    rwa [List.append_assoc] at hnext

/-- **Operations come to nothing but calls of `advance`**, so the states between two such calls are
reachable too. -/
theorem reachable_iff_advances : Reachable s taken c ↔ (start s).Advances taken c := by
  constructor
  · intro h
    induction h with
    | start => exact .refl _
    | @step _ c _ _ op ih => exact ih.trans (op.walk c).advances
  · exact fun h => Reachable.start.of_advances h

end Cursor

/-! ## Streams -/

open Cursor

/-- In every state that the operations of a parser come to, from the start of the stream on, the two
indices say which tokens have been taken and which come next. -/
structure TokenStream.NeverLosesPlace (s : TokenStream) : Prop where
  /-- The tokens taken are those that calls of `advance` return. -/
  reachable_iff_advances : ∀ taken c, Reachable s taken c ↔ (start s).Advances taken c
  keepsPlace : ∀ taken c, Reachable s taken c → KeepsPlace s taken c
  /-- An operation has the value or cause, and leaves the terminals, that its rule does. -/
  reads : ∀ taken c, Reachable s taken c → ∀ (α : Type) (op : Operation α),
    (op.walk c).Reads (op.reading c)
  /-- The loop on indices gives the parse, and takes every significant token once. -/
  parse : ((start s).declarations .empty).result = .ok s.parse ∧
    ((start s).declarations .empty).taken = s.significant

/-- **The parser never loses its place.** -/
theorem TokenStream.neverLosesPlace (s : TokenStream) : s.NeverLosesPlace where
  reachable_iff_advances _ _ := Cursor.reachable_iff_advances
  keepsPlace taken c h :=
    (Cursor.reachable_iff_advances.1 h).keepsPlace (keepsPlace_start s)
  reads taken c h _ op :=
    op.reads ((Cursor.reachable_iff_advances.1 h).isRegular (isRegular_start s))
  parse := by
    have hread := reads_declarations (isRegular_start s) .empty
    refine ⟨hread.result_eq, ?_⟩
    obtain ⟨passed, hterminals, htaken, -⟩ :=
      ((start s).declarations .empty).advances.exists_passed (isRegular_start s)
    rw [hread.terminals_eq, terminals_start] at hterminals
    rw [← htaken, significant, ← Terminal.map_token_ofTokens, hterminals]
    simp

end DeclFront
