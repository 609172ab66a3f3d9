import DeclFront.Proofs.Grammar.Terminals
import DeclFront.Proofs.Grammar.Uniqueness

/-!
# Proofs/Grammar/Language — the parser and its grammar

`Sentence.Derives` ties a derivation to a token stream with no word about the parser; the parser
accepts a stream exactly when it has a derivation, and then returns what the derivation says.
-/

namespace DeclFront

open Grammar

/-- The sentence derives the tokens: its terminals, each a significant token with the trivia in
front of it, are the tokens up to the trivia behind the last. -/
def Grammar.Sentence.Derives (sentence : Sentence) (tokens : List Token) : Prop :=
  (∀ t ∈ Sentence.yield sentence, t.IsRegular) ∧
    ∃ trailing, (∀ t ∈ trailing, t.isTrivia = true) ∧
      tokens = Terminal.tokens (Sentence.yield sentence) ++ trailing

/-- A sentence derives tokens when its terminals are theirs. -/
theorem Grammar.Sentence.derives_iff {sentence : Sentence} {tokens : List Token} :
    Sentence.Derives sentence tokens ↔ Sentence.yield sentence = Terminal.ofTokens tokens := by
  rw [eq_comm]
  exact Terminal.ofTokens_eq_iff.symm

namespace TokenStream

/-- **The parser accepts exactly its grammar**: a stream parses without a failure just when a
sentence derives it.  There is one such sentence at most, and the declarations and the diagnostics
of the parse are those of the sentence. -/
theorem parse_isSuccess_iff_derives (s : TokenStream) :
    (s.parse.isSuccess = true ↔ ∃ sentence : Sentence, Sentence.Derives sentence s.tokens) ∧
      ∀ sentence : Sentence, Sentence.Derives sentence s.tokens →
        (∀ other : Sentence, Sentence.Derives other s.tokens → other = sentence) ∧
          s.parse.tree.declarations = Sentence.declarations sentence ∧
          s.parse.diagnostics.diagnostics = Sentence.diagnostics sentence := by
  have parse_eq {sentence : Sentence} (h : Sentence.Derives sentence s.tokens) :
      s.parse = Sentence.prepend sentence .empty := by
    have heq : declarations s.stop (Sentence.yield sentence ++ []) =
        Sentence.prepend sentence (declarations s.stop []) :=
      declarations_yield_append sentence (not_begins_nil _)
    rw [List.append_nil, Sentence.derives_iff.1 h] at heq
    rw [parse, heq, declarations]
  refine ⟨⟨fun h => ?_, ?_⟩, fun sentence h => ⟨fun other hother => ?_, ?_, ?_⟩⟩
  · obtain ⟨sentence, hsentence⟩ := exists_sentence_of_failures_eq_nil (List.isEmpty_iff.1 h)
    exact ⟨sentence, Sentence.derives_iff.2 hsentence⟩
  · rintro ⟨sentence, h⟩
    rw [parse_eq h]
    rfl
  · exact Sentence.yield_injective
      ((Sentence.derives_iff.1 hother).trans (Sentence.derives_iff.1 h).symm)
  · rw [parse_eq h]
    exact List.append_nil _
  · rw [parse_eq h]
    exact List.append_nil _

/-- A token between two columns of the first line. -/
def onFirstLine (kind : TokenKind) (start stop : Nat) : Token :=
  ⟨kind, ⟨⟨⟨1, start⟩, "p"⟩, ⟨⟨1, stop⟩, "p"⟩⟩⟩

/-- The derivation of `private(set) import a`. -/
def settersOnlyImport : Sentence :=
  [.declaration
    ⟨[],
      some
        ⟨⟨⟨[], onFirstLine (.keyword ⟨"private", .declaration⟩) 1 8⟩, .privateAccess, rfl⟩,
          some
            ⟨⟨⟨[], onFirstLine (.punctuator .leftParen) 8 9⟩, rfl⟩,
              ⟨⟨[], onFirstLine (.keyword ⟨"set", .contextual .accessor⟩) 9 12⟩, rfl⟩,
              ⟨⟨[], onFirstLine (.punctuator .rightParen) 12 13⟩, rfl⟩⟩⟩,
      .importing
        ⟨⟨⟨[onFirstLine (.control .space) 13 14],
            onFirstLine (.keyword ⟨"import", .declaration⟩) 14 20⟩, rfl⟩,
          ⟨⟨⟨[onFirstLine (.control .space) 20 21], onFirstLine (.identifier "a") 21 22⟩, "a", rfl⟩,
            []⟩⟩⟩]

/-- A modifier with `(set)` is accepted, gives no access and is diagnosed. -/
theorem parse_settersOnlyImport :
    Sentence.Derives settersOnlyImport (ofText "p" "private(set) import a").tokens ∧
      (ofText "p" "private(set) import a").parse.isSuccess = true ∧
      (ofText "p" "private(set) import a").parse.diagnostics.diagnostics =
        Sentence.diagnostics settersOnlyImport := by
  have h : Sentence.Derives settersOnlyImport (ofText "p" "private(set) import a").tokens := by
    rw [Sentence.derives_iff]
    decide +kernel
  obtain ⟨haccepts, hvalue⟩ := parse_isSuccess_iff_derives (ofText "p" "private(set) import a")
  exact ⟨h, haccepts.2 ⟨_, h⟩, (hvalue _ h).2.2⟩

end TokenStream

end DeclFront
