import DeclFront.Proofs.Text.Digits
import DeclFront.Text.Quoted

/-!
# Proofs/Text/Quoted — quoted texts can be told apart

    \x00 ↦ \0      a ↦ a      \x07 ↦ \u \x7b 7 \x7d

A character has one of three written forms (`Form`), and no form is the beginning of another
(`Form.append_inj`): a backslash stands only at the front of the first and the last, the letter
behind it tells these two apart, and the closing brace ends the last.  No form starts with a double
quote, so that the closing quote is seen (`encode_append_inj`); and none holds a line end.
-/

namespace DeclFront

/-- The text holds no line end. -/
def OneLine (text : List Char) : Prop := '\n' ∉ text ∧ '\r' ∉ text

instance (text : List Char) : Decidable (OneLine text) := inferInstanceAs (Decidable (_ ∧ _))

theorem OneLine.append {front back : List Char} (hfront : OneLine front) (hback : OneLine back) :
    OneLine (front ++ back) := by
  simp only [OneLine, List.mem_append, not_or] at *
  exact ⟨⟨hfront.1, hback.1⟩, ⟨hfront.2, hback.2⟩⟩

theorem oneLine_flatMap {α : Type} {f : α → List Char} {l : List α}
    (h : ∀ a ∈ l, OneLine (f a)) : OneLine (l.flatMap f) := by
  simp only [OneLine, List.mem_flatMap, not_exists, not_and]
  exact ⟨fun a ha => (h a ha).1, fun a ha => (h a ha).2⟩

theorem oneLine_toDigits {b : Nat} (hb : 1 < b) (n : Nat) : OneLine (Nat.toDigits b n) :=
  ⟨notMem_toDigits hb (by decide) n, notMem_toDigits hb (by decide) n⟩

namespace Quoted

/-- The characters written as a backslash and one more character, each with that. -/
def shortForms : List (Char × Char) :=
  [('\x00', '0'), ('\t', 't'), ('\r', 'r'), ('\n', 'n'), ('\"', '\"'), ('\\', '\\')]

/-- The written forms of a character. -/
inductive Form (c : Char) : List Char → Prop where
  | short {mark : Char} (h : (c, mark) ∈ shortForms) : Form c ['\\', mark]
  | plain (h : ∀ mark, (c, mark) ∉ shortForms) : Form c [c]
  | code : Form c ('\\' :: 'u' :: '\x7b' :: (hexadecimal c ++ ['\x7d']))

/-- **Every character is escaped in one of the forms.** -/
theorem form_escape (c : Char) : Form c (escape c) := by
  unfold escape
  split
  · exact .short (by decide)
  · exact .short (by decide)
  · exact .short (by decide)
  · exact .short (by decide)
  · exact .short (by decide)
  · exact .short (by decide)
  · split
    · exact .plain (by simp_all [shortForms])
    · exact .code

namespace Form

variable {c d : Char} {form form' back back' : List Char}

/-- No short form looks like a code point. -/
theorem mark_ne_u {mark : Char} (h : (c, mark) ∈ shortForms) : mark ≠ 'u' := by
  rintro rfl
  simp [shortForms] at h

/-- Short forms are told apart by their marks. -/
theorem eq_of_mark {mark : Char} (hc : (c, mark) ∈ shortForms) (hd : (d, mark) ∈ shortForms) :
    c = d := by
  simp only [shortForms, List.mem_cons, Prod.mk.injEq, List.not_mem_nil, or_false] at hc hd
  grind

/-- A backslash is never written as it is. -/
theorem ne_of_plain (h : ∀ mark, (c, mark) ∉ shortForms) : c ≠ '\\' := by
  rintro rfl
  exact h '\\' (by decide)

/-- **A written form tells its character and where it ends.** -/
theorem append_inj (hc : Form c form) (hd : Form d form') (h : form ++ back = form' ++ back') :
    c = d ∧ back = back' := by
  cases hc with
  | short hc =>
    cases hd with
    | short hd =>
      simp only [List.cons_append, List.nil_append, List.cons.injEq, true_and] at h
      obtain ⟨rfl, rfl⟩ := h
      exact ⟨eq_of_mark hc hd, rfl⟩
    | plain hd => exact absurd (List.cons.inj h).1.symm (ne_of_plain hd)
    | code => exact absurd (List.cons.inj (List.cons.inj h).2).1 (mark_ne_u hc)
  | plain hc =>
    cases hd with
    | short hd => exact absurd (List.cons.inj h).1 (ne_of_plain hc)
    | plain hd => exact List.cons.inj h
    | code => exact absurd (List.cons.inj h).1 (ne_of_plain hc)
  | code =>
    cases hd with
    | short hd => exact absurd (List.cons.inj (List.cons.inj h).2).1.symm (mark_ne_u hd)
    | plain hd => exact absurd (List.cons.inj h).1.symm (ne_of_plain hd)
    | code =>
      -- The brace ends the digits of both codes at one place.
      simp only [List.cons_append, List.append_assoc, List.nil_append, List.cons.injEq,
        true_and] at h
      obtain ⟨hcode, hback⟩ := toDigits_append_inj (by decide) (by decide) (by decide) h
      exact ⟨Char.toNat_inj.1 hcode, hback⟩

/-- No form starts with a double quote. -/
theorem ne_quote_cons (h : Form c form) : form ++ back ≠ '\"' :: back' := by
  intro heq
  cases h with
  | short => cases heq
  | plain h =>
    obtain rfl : c = '\"' := (List.cons.inj heq).1
    exact h '\"' (by decide)
  | code => cases heq

/-- No form holds a line end. -/
theorem oneLine (h : Form c form) : OneLine form := by
  cases h with
  | short h =>
    have hshort : ∀ p ∈ shortForms, OneLine ['\\', p.2] := by decide
    exact hshort _ h
  | plain h =>
    simp only [OneLine, List.mem_singleton]
    exact ⟨by rintro rfl; exact h 'n' (by decide), by rintro rfl; exact h 'r' (by decide)⟩
  | code =>
    have hfront : OneLine ['\\', 'u', '\x7b'] := by decide
    exact hfront.append ((oneLine_toDigits (by decide) _).append (by decide))

end Form

/-! ## Texts -/

/-- **The first double quote that stands in no form ends the text.** -/
theorem flatMap_escape_append_inj {s t back back' : List Char}
    (h : s.flatMap escape ++ '\"' :: back = t.flatMap escape ++ '\"' :: back') :
    s = t ∧ back = back' := by
  induction s generalizing t with
  | nil =>
    cases t with
    | nil => exact ⟨rfl, (List.cons.inj h).2⟩
    | cons d t =>
      rw [List.flatMap_cons, List.append_assoc] at h
      exact absurd h.symm (form_escape d).ne_quote_cons
  | cons c s ih =>
    cases t with
    | nil =>
      rw [List.flatMap_cons, List.append_assoc] at h
      exact absurd h (form_escape c).ne_quote_cons
    | cons d t =>
      simp only [List.flatMap_cons, List.append_assoc] at h
      obtain ⟨rfl, hrest⟩ := (form_escape c).append_inj (form_escape d) h
      obtain ⟨rfl, hback⟩ := ih hrest
      exact ⟨rfl, hback⟩

/-- **A quoted text is known from its written form, and so is where that ends.** -/
theorem encode_append_inj {s t : String} {back back' : List Char}
    (h : (encode s).toList ++ back = (encode t).toList ++ back') : s = t ∧ back = back' := by
  simp only [encode, String.toList_ofList, List.cons_append, List.append_assoc, List.nil_append,
    List.cons.injEq, true_and] at h
  obtain ⟨htext, hback⟩ := flatMap_escape_append_inj h
  exact ⟨String.toList_injective htext, hback⟩

/-- **Quoted texts are told apart.** -/
theorem encode_injective : Function.Injective encode := by
  intro s t h
  have hchars : (encode s).toList ++ [] = (encode t).toList ++ [] := by rw [h]
  exact (encode_append_inj hchars).1

/-- **A quoted text stands on one line.** -/
theorem oneLine_encode (s : String) : OneLine (encode s).toList := by
  have hquote : OneLine ['\"'] := by decide
  have hforms : OneLine (s.toList.flatMap escape) :=
    oneLine_flatMap fun c _ => (form_escape c).oneLine
  rw [encode, String.toList_ofList]
  exact hquote.append (hforms.append hquote)

example : encode "a\"\n\x07" = "\"a\\\"\\n\\u\x7b7\x7d\"" := by decide

end Quoted

end DeclFront
