import DeclFront.Proofs.Text.Quoted
import DeclFront.Token.Description

/-!
# Proofs/Token/Dump — a kind of token is known from its term

    Keyword  (  Keyword \x7b text: "set", category: Contextual  (  Accessor  )  \x7d  )

A term is a head, and behind it an argument between parentheses or nothing.  No head holds a
parenthesis, so the first one ends the head (`termText_inj`), and the arguments are terms again, or
quoted, or one of a few words.  So the term tells the kind (`TokenKind.dump_injective`); and it
stands on one line (`TokenKind.oneLine_dump`).
-/

namespace DeclFront

/-! ## Terms -/

/-- A head with an argument between parentheses, or without one. -/
def termText (head : String) : Option String → String
  | none => head
  | some argument => head ++ "(" ++ argument ++ ")"

/-- The text can be the head of a term: it holds no parenthesis, and no line end. -/
def IsHead (head : String) : Prop := '(' ∉ head.toList ∧ OneLine head.toList

section Terms

variable {head head' : String} {argument argument' : Option String}

/-- **The first parenthesis ends the head of a term.** -/
theorem termText_inj (hhead : IsHead head) (hhead' : IsHead head')
    (h : termText head argument = termText head' argument') :
    head = head' ∧ argument = argument' := by
  have hchars := congrArg String.toList h
  cases argument with
  | none =>
    cases argument' with
    | none => exact ⟨h, rfl⟩
    | some a' => exact absurd (hchars ▸ by simp [termText]) hhead.1
  | some a =>
    cases argument' with
    | none => exact absurd (hchars ▸ by simp [termText]) hhead'.1
    | some a' =>
      simp only [termText, String.toList_append, List.append_assoc] at hchars
      obtain ⟨hheads, harguments⟩ := append_cons_inj_of_notMem hhead.1 hhead'.1 hchars
      have harguments := String.toList_injective (List.append_cancel_right harguments)
      exact ⟨String.toList_injective hheads, congrArg some harguments⟩

theorem oneLine_termText (hhead : IsHead head)
    (hargument : ∀ a ∈ argument, OneLine a.toList) : OneLine (termText head argument).toList := by
  cases argument with
  | none => exact hhead.2
  | some a =>
    simp only [termText, String.toList_append]
    exact ((hhead.2.append (by decide)).append (hargument a rfl)).append (by decide)

end Terms

/-! ## Kinds -/

/-- Punctuators are told apart by their names. -/
theorem Punctuator.label_injective : Function.Injective Punctuator.label := by
  intro p q h
  cases p <;> cases q <;> first | rfl | simp [Punctuator.label] at h

theorem Control.label_injective : Function.Injective Control.label := by
  intro p q h
  cases p <;> cases q <;> first | rfl | simp [Control.label] at h

theorem ContextualKind.label_injective : Function.Injective ContextualKind.label := by
  intro p q h
  cases p <;> cases q <;> first | rfl | simp [ContextualKind.label] at h

namespace KeywordCategory

/-- A category is a term, with an argument if it is contextual. -/
theorem dump_eq (category : KeywordCategory) :
    category.dump = termText category.label (category.contextualKind?.map (·.label)) := by
  cases category <;> rfl

theorem isHead_label (category : KeywordCategory) : IsHead category.label := by
  cases category <;> simp [label, IsHead, OneLine]

/-- Categories are told apart by their dumps. -/
theorem dump_injective : Function.Injective dump := by
  intro c d h
  rw [dump_eq, dump_eq] at h
  obtain ⟨hlabel, hkind⟩ := termText_inj c.isHead_label d.isHead_label h
  cases c <;> cases d <;> first | rfl | (simp [label] at hlabel; done) | refine congrArg _ ?_
  exact ContextualKind.label_injective (Option.some.inj hkind)

theorem oneLine_dump (category : KeywordCategory) : OneLine category.dump.toList := by
  rw [dump_eq]
  refine oneLine_termText category.isHead_label fun a ha => ?_
  obtain ⟨kind, -, rfl⟩ := Option.map_eq_some_iff.1 ha
  cases kind <;> decide

end KeywordCategory

namespace Keyword

theorem toList_dump (k : Keyword) :
    k.dump.toList = "Keyword \x7b text: ".toList ++ ((Quoted.encode k.word).toList ++
      (", category: ".toList ++ (k.category.dump.toList ++ " \x7d".toList))) := by
  unfold dump
  rw [String.toList_append, String.toList_append, String.toList_append, String.toList_append]
  simp only [List.append_assoc]

theorem dump_injective : Function.Injective dump := by
  intro k l h
  have hchars := congrArg String.toList h
  rw [toList_dump, toList_dump] at hchars
  obtain ⟨hword, hbehind⟩ := Quoted.encode_append_inj (List.append_cancel_left hchars)
  have hcategory := List.append_cancel_right (List.append_cancel_left hbehind)
  have hcategory := KeywordCategory.dump_injective (String.toList_injective hcategory)
  exact Keyword.mk.injEq .. ▸ ⟨hword, hcategory⟩

theorem oneLine_dump (k : Keyword) : OneLine k.dump.toList := by
  rw [toList_dump]
  exact OneLine.append (by decide) ((Quoted.oneLine_encode _).append
    (OneLine.append (by decide) (k.category.oneLine_dump.append (by decide))))

end Keyword

namespace Literal

/-- The text that a literal holds. -/
def text? : Literal → Option String
  | string _ raw => some raw
  | number _ spelling => some spelling
  | _ => none

/-- A literal is a term, with its text quoted if it has one. -/
theorem dump_eq (value : Literal) :
    value.dump = termText value.label (value.text?.map Quoted.encode) := by
  unfold dump
  split
  · rfl
  · rfl
  · cases value <;> first | rfl | simp_all

/-- A literal is known from its label and its text. -/
theorem eq_of_label {v w : Literal} (hlabel : v.label = w.label) (htext : v.text? = w.text?) :
    v = w := by
  rcases v with ⟨_ | _, raw⟩ | ⟨_ | _ | _ | _ | _ | _, spelling⟩ | ⟨_ | _⟩ | _ <;>
  rcases w with ⟨_ | _, raw'⟩ | ⟨_ | _ | _ | _ | _ | _, spelling'⟩ | ⟨_ | _⟩ | _ <;>
  simp_all [label, NumberForm.label, text?]

theorem isHead_label (v : Literal) : IsHead v.label := by
  rcases v with ⟨_ | _, raw⟩ | ⟨_ | _ | _ | _ | _ | _, spelling⟩ | ⟨_ | _⟩ | _ <;>
  simp [label, NumberForm.label, IsHead, OneLine]

theorem dump_injective : Function.Injective dump := by
  intro v w h
  rw [dump_eq, dump_eq] at h
  obtain ⟨hlabel, htext⟩ := termText_inj v.isHead_label w.isHead_label h
  exact eq_of_label hlabel (Option.map_injective Quoted.encode_injective htext)

theorem oneLine_dump (v : Literal) : OneLine v.dump.toList := by
  rw [dump_eq]
  refine oneLine_termText v.isHead_label fun a ha => ?_
  obtain ⟨text, -, rfl⟩ := Option.map_eq_some_iff.1 ha
  exact Quoted.oneLine_encode text

end Literal

namespace TokenKind

/-- The argument of the term for a kind. -/
def argument : TokenKind → String
  | literal value => value.dump
  | keyword k => k.dump
  | punctuator p => p.label
  | control c => c.label
  | identifier text | quotedIdentifier text | operator text | comment text | invalid text =>
    Quoted.encode text

/-- A kind is a term with one argument. -/
theorem dump_eq (kind : TokenKind) : kind.dump = termText kind.label (some kind.argument) := by
  cases kind <;> rfl

theorem isHead_label (kind : TokenKind) : IsHead kind.label := by
  cases kind <;> simp [label, IsHead, OneLine]

/-- **A kind is known from its term.** -/
theorem dump_injective : Function.Injective dump := by
  intro k l h
  rw [dump_eq, dump_eq] at h
  obtain ⟨hlabel, hargument⟩ := termText_inj k.isHead_label l.isHead_label h
  have hargument := Option.some.inj hargument
  -- Kinds of two sorts differ in their labels, kinds of one sort in their arguments.
  cases k <;> cases l <;> first | (simp [label] at hlabel; done) | refine congrArg _ ?_
  case literal => exact Literal.dump_injective hargument
  case keyword => exact Keyword.dump_injective hargument
  case punctuator => exact Punctuator.label_injective hargument
  case control => exact Control.label_injective hargument
  all_goals exact Quoted.encode_injective hargument

/-- **The term for a kind stands on one line.** -/
theorem oneLine_dump (kind : TokenKind) : OneLine kind.dump.toList := by
  rw [dump_eq]
  refine oneLine_termText kind.isHead_label fun a ha => ?_
  obtain rfl := Option.some.inj ha
  cases kind with
  | literal value => exact value.oneLine_dump
  | keyword k => exact k.oneLine_dump
  | punctuator p => cases p <;> decide
  | control c => cases c <;> decide
  | identifier | quotedIdentifier | operator | comment | invalid => exact Quoted.oneLine_encode _

end TokenKind

end DeclFront
