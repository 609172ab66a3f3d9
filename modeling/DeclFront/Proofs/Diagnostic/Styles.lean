import DeclFront.Proofs.Diagnostic.Delivery
import DeclFront.Proofs.Text.Digits

/-!
# Proofs/Diagnostic/Styles — colours change nothing else

    ESC [2m  main[1:1-1:4]  ESC [0m  ␣  ESC [38;5;9m  ESC [1m  error  ESC [0m  :␣message⏎

A style is put on by control sequences, each from an escape character to the next `m`, and taken off
by one more.  **Without these a coloured text is the plain one**
(`Diagnostic.withoutStyles_colouredText`): what stands between two sequences holds no escape
character, so each is found where it was put, and a bracket or an `m` of a message belongs to none.
The counts do not depend on the colours, since a reporter counts a diagnostic before it writes its
line (`OpenWriter.exists_reportsAlike`).
-/

namespace DeclFront

/-! ## Control sequences -/

/-- The text without its control sequences, each from `ESC [` to the first `m` behind. -/
def withoutStyles : List Char → List Char
  | '\x1b' :: '[' :: cs =>
    if 'm' ∈ cs then withoutStyles (cs.dropWhile (· != 'm')).tail
    else '\x1b' :: '[' :: withoutStyles cs
  | c :: cs => c :: withoutStyles cs
  | [] => []
termination_by text => text.length
decreasing_by
  · have hdrop := (List.dropWhile_suffix (l := cs) (· != 'm')).length_le
    simp only [List.length_cons, List.length_tail]
    omega
  all_goals simp only [List.length_cons]; omega

section Sequences

variable {front body back : List Char}

/-- What is no escape stays. -/
theorem withoutStyles_cons_of_ne {c : Char} (hc : c ≠ '\x1b') (cs : List Char) :
    withoutStyles (c :: cs) = c :: withoutStyles cs := by
  rw [withoutStyles]
  exact fun _ heq => absurd heq hc

/-- A front without escapes stays whole. -/
theorem withoutStyles_append_of_notMem (h : '\x1b' ∉ front) :
    withoutStyles (front ++ back) = front ++ withoutStyles back := by
  induction front with
  | nil => rfl
  | cons c front ih =>
    obtain ⟨hc, hfront⟩ := not_or.1 (mt List.mem_cons.2 h)
    rw [List.cons_append, withoutStyles_cons_of_ne (Ne.symm hc), ih hfront, List.cons_append]

/-- **A sequence ends at its first `m`.** -/
theorem withoutStyles_bracket (h : 'm' ∉ body) :
    withoutStyles ('\x1b' :: '[' :: (body ++ 'm' :: back)) = withoutStyles back := by
  have hbody : ∀ c ∈ body, (c != 'm') = true := fun c hc =>
    bne_iff_ne.2 (ne_of_mem_of_not_mem hc h)
  rw [withoutStyles, if_pos (by simp), List.dropWhile_append_of_pos hbody]
  rfl

end Sequences

example : withoutStyles "\x1b[1mm\x1b[0m [0m".toList = "m [0m".toList := by decide +kernel

/-! ## Styles -/

namespace TerminalStyle

/-- The code ends at its first `m`. -/
def EndsAtM (code : String) : Prop :=
  'm' ∉ code.toList.dropLast ∧ code.toList.getLast? = some 'm'

instance (code : String) : Decidable (EndsAtM code) := inferInstanceAs (Decidable (_ ∧ _))

/-- All codes of the style end at their first `m`. -/
def IsProper (style : TerminalStyle) : Prop := ∀ code ∈ style.codes, EndsAtM code

instance (style : TerminalStyle) : Decidable style.IsProper :=
  inferInstanceAs (Decidable (∀ code ∈ style.codes, EndsAtM code))

theorem isProper_dim : dim.IsProper := by decide

/-- The styles of both severities end their sequences properly. -/
theorem isProper_style (severity : Severity) : severity.style.IsProper := by
  cases severity <;> decide

/-- **A control sequence is dropped whole**, up to its last letter. -/
theorem withoutStyles_sequence {code : String} (h : EndsAtM code) (back : List Char) :
    withoutStyles ((sequence code).toList ++ back) = withoutStyles back := by
  rw [sequence, String.toList_append, ← List.dropLast_append_getLast? 'm' h.2]
  simpa using withoutStyles_bracket h.1

theorem withoutStyles_codes {codes : List String} (h : IsProper ⟨codes⟩) (back : List Char) :
    withoutStyles ((String.join (codes.map sequence)).toList ++ back) = withoutStyles back := by
  rw [String.toList_join, List.flatMap_map]
  induction codes with
  | nil => rfl
  | cons code codes ih =>
    obtain ⟨hcode, hcodes⟩ := List.forall_mem_cons.1 h
    rw [List.flatMap_cons, List.append_assoc, withoutStyles_sequence hcode, ih hcodes]

/-- **Without its sequences a styled text is the text.** -/
theorem withoutStyles_apply {style : TerminalStyle} (hstyle : style.IsProper) {s : String}
    (hs : '\x1b' ∉ s.toList) (back : List Char) :
    withoutStyles ((style.apply s).toList ++ back) = s.toList ++ withoutStyles back := by
  rw [apply, String.toList_append, String.toList_append, List.append_assoc, List.append_assoc,
    withoutStyles_codes hstyle, withoutStyles_append_of_notMem hs,
    withoutStyles_sequence (by decide)]

end TerminalStyle

/-! ## Lines -/

namespace Diagnostic

/-- The diagnostic shows no escape character. -/
def HasNoEscape (d : Diagnostic) : Prop :=
  '\x1b' ∉ d.range.start.path.toList ∧ '\x1b' ∉ d.message.toList

instance (d : Diagnostic) : Decidable d.HasNoEscape := inferInstanceAs (Decidable (_ ∧ _))

/-- A range holds an escape only if its path does. -/
theorem notMem_text_range {d : Diagnostic} (h : d.HasNoEscape) : '\x1b' ∉ d.range.text.toList := by
  rw [Range.toList_text, List.mem_append, not_or]
  exact ⟨h.1, d.range.notMem_marks (by decide) (by decide)⟩

/-- **Without its sequences a coloured text is the plain one.** -/
theorem withoutStyles_colouredText {d : Diagnostic} (h : d.HasNoEscape) (back : List Char) :
    withoutStyles (d.colouredText.toList ++ back) = d.text.toList ++ withoutStyles back := by
  have hseverity : '\x1b' ∉ d.severity.text.toList := by cases d.severity <;> decide
  simp only [colouredText, text, String.toList_append, List.append_assoc]
  rw [TerminalStyle.withoutStyles_apply TerminalStyle.isProper_dim (notMem_text_range h),
    withoutStyles_append_of_notMem (by decide),
    TerminalStyle.withoutStyles_apply (TerminalStyle.isProper_style _) hseverity,
    withoutStyles_append_of_notMem (by decide), withoutStyles_append_of_notMem h.2]

end Diagnostic

/-! ## Reports -/

variable {ε ε' ω ω' : Type}

namespace Reporter

@[simp] theorem line_count (r : Reporter ω) (d : Diagnostic) : (r.count d).line = r.line := by
  funext d'
  rw [count]
  cases d.severity <;> rfl

@[simp] theorem line_withWriter (r : Reporter ω) (writer : ω) :
    (r.withWriter writer).line = r.line := rfl

@[simp] theorem writer_count (r : Reporter ω) (d : Diagnostic) :
    (r.count d).writer = r.writer := by
  rw [count]
  cases d.severity <;> rfl

/-- Where the writer takes all the lines, the reporter takes all the diagnostics. -/
theorem forM_consume {write : LineWriter ε ω} {r : Reporter ω} {ds : List Diagnostic} {writer : ω}
    (h : (ds.map r.line).forM write r.writer = .ok () writer) :
    ds.forM (consume write) r = .ok () ((ds.foldl count r).withWriter writer) := by
  induction ds generalizing r with
  | nil =>
    obtain rfl : r.writer = writer := (EStateM.Result.ok.inj h).2
    rfl
  | cons d ds ih =>
    have hconsume : consume write d r = Reporter.write write (r.line d) (r.count d) := by
      rw [← line_count r d]
      rfl
    rw [Reporter.write, writer_count] at hconsume
    cases hline : write (r.line d) r.writer with
    | error fault between =>
      -- A line that is refused would be the last one written.
      rw [List.map_cons, forM_cons_of_error hline] at h
      cases h
    | ok value between =>
      rw [List.map_cons, forM_cons_of_ok hline] at h
      rw [hline] at hconsume
      have hnext : (ds.map ((r.count d).withWriter between).line).forM write between =
          .ok () writer := by
        rw [line_withWriter, line_count, h]
      rw [forM_cons_of_ok hconsume, ih hnext, foldl_count_withWriter, withWriter_withWriter,
        List.foldl_cons]

end Reporter

/-- A writer that takes every line, with the text that it has taken. -/
structure OpenWriter (ε ω : Type) where
  write : LineWriter ε ω
  start : ω
  text : ω → String
  forM_write (lines : List String) :
    ∃ writer, lines.forM write start = .ok () writer ∧ text writer = String.join lines

namespace OpenWriter

/-- An open transcript takes every line. -/
theorem forM_write_transcript (text : String) (lines : List String) :
    lines.forM Transcript.write ⟨false, text⟩ = .ok () ⟨false, text ++ String.join lines⟩ := by
  induction lines generalizing text with
  | nil =>
    rw [String.join_nil, String.append_empty]
    rfl
  | cons line lines ih =>
    have hline : Transcript.write line ⟨false, text⟩ = .ok () ⟨false, text ++ line⟩ := rfl
    rw [forM_cons_of_ok hline, ih, String.join_cons, String.append_assoc]

/-- The writer of a `TerminalReporter`. -/
def transcript : OpenWriter ConsumerFault Transcript where
  write := Transcript.write
  start := ⟨false, ""⟩
  text := Transcript.text
  forM_write lines := ⟨_, forM_write_transcript "" lines, String.empty_append⟩

/-- A reporter that has written nothing to the writer. -/
def reporter (writer : OpenWriter ε ω) (coloured : Bool) : Reporter ω :=
  ⟨coloured, 0, 0, writer.start⟩

/-- A report to a reporter of the writer: all diagnostics are taken, counted and written. -/
theorem report_eq (writer : OpenWriter ε ω) (coloured : Bool) (pool : DiagnosticPool) :
    ∃ last, writer.text last = String.join (pool.diagnostics.map (writer.reporter coloured).line) ∧
      pool.report (Reporter.consume writer.write) (writer.reporter coloured) =
        (.ok () ((pool.diagnostics.foldl Reporter.count (writer.reporter coloured)).withWriter last),
          ∅) := by
  obtain ⟨last, hforM, htext⟩ :=
    writer.forM_write (pool.diagnostics.map (writer.reporter coloured).line)
  exact ⟨last, htext, Prod.ext (Reporter.forM_consume hforM) rfl⟩

end OpenWriter

/-- **Without its sequences a coloured report is the plain one.** -/
theorem withoutStyles_join_colouredText {ds : List Diagnostic} (h : ∀ d ∈ ds, d.HasNoEscape) :
    withoutStyles (String.join (ds.map (·.colouredText ++ "\n"))).toList =
      (String.join (ds.map (·.text ++ "\n"))).toList := by
  simp only [String.toList_join, List.flatMap_map]
  induction ds with
  | nil => rw [List.flatMap_nil, List.flatMap_nil, withoutStyles]
  | cons d ds ih =>
    obtain ⟨hd, hds⟩ := List.forall_mem_cons.1 h
    rw [List.flatMap_cons, List.flatMap_cons, String.toList_append, String.toList_append,
      List.append_assoc, List.append_assoc, Diagnostic.withoutStyles_colouredText hd,
      withoutStyles_append_of_notMem (by decide), ih hds]

namespace OpenWriter

/-- A report to a coloured reporter and one to a plain reporter say the same. -/
structure ReportsAlike (coloured : OpenWriter ε ω) (plain : OpenWriter ε' ω')
    (pool : DiagnosticPool) (r : Reporter ω) (r' : Reporter ω') : Prop where
  /-- No diagnostic is refused by the coloured reporter … -/
  report_coloured :
    pool.report (Reporter.consume coloured.write) (coloured.reporter true) = (.ok () r, ∅)
  /-- … or by the plain one. -/
  report_plain :
    pool.report (Reporter.consume plain.write) (plain.reporter false) = (.ok () r', ∅)
  errors_eq : r.errors = r'.errors
  warnings_eq : r.warnings = r'.warnings
  /-- What the plain reporter writes. -/
  text_plain : plain.text r'.writer = String.join (pool.diagnostics.map (·.text ++ "\n"))
  /-- What the coloured reporter writes is the same but for the control sequences. -/
  withoutStyles_text :
    withoutStyles (coloured.text r.writer).toList = (plain.text r'.writer).toList

/-- **Colours change nothing else**, whatever the writers and the diagnostics are. -/
theorem exists_reportsAlike (coloured : OpenWriter ε ω) (plain : OpenWriter ε' ω')
    (pool : DiagnosticPool) (h : ∀ d ∈ pool.diagnostics, d.HasNoEscape) :
    ∃ r r', ReportsAlike coloured plain pool r r' := by
  obtain ⟨last, htext, hreport⟩ := coloured.report_eq true pool
  obtain ⟨last', htext', hreport'⟩ := plain.report_eq false pool
  have hcounts := Reporter.counts_foldl_count (coloured.reporter true) pool.diagnostics last
  have hcounts' := Reporter.counts_foldl_count (plain.reporter false) pool.diagnostics last'
  refine ⟨_, _, hreport, hreport', hcounts.errors_eq.trans hcounts'.errors_eq.symm,
    hcounts.warnings_eq.trans hcounts'.warnings_eq.symm, htext', ?_⟩
  exact (congrArg (withoutStyles ·.toList) htext).trans
    ((withoutStyles_join_colouredText h).trans (congrArg String.toList htext').symm)

/-- An error and a warning whose paths and messages hold what stands in sequences. -/
def bracketedPool : DiagnosticPool :=
  ⟨[⟨.error, "[0m", ⟨⟨⟨1, 1⟩, "a[m"⟩, ⟨⟨1, 4⟩, "a[m"⟩⟩⟩, ⟨.warning, "m", .empty ⟨⟨2, 1⟩, "[1m"⟩⟩]⟩

/-- Brackets in a path or a message look like the rest of a control sequence, and stay. -/
theorem exists_reportsAlike_bracketedPool :
    (∀ d ∈ bracketedPool.diagnostics, d.HasNoEscape) ∧
      ∃ r r', ReportsAlike transcript transcript bracketedPool r r' := by
  have hnone : ∀ d ∈ bracketedPool.diagnostics, d.HasNoEscape := by decide
  exact ⟨hnone, exists_reportsAlike transcript transcript bracketedPool hnone⟩

end OpenWriter

end DeclFront
