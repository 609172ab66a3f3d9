import DeclFront.Diagnostic.TerminalReporter
import Mathlib.Data.List.Basic

/-!
# Proofs/Diagnostic/Delivery — one report, as its consumer sees it

    waiting   d₁ … dₖ │ dₖ₊₁ … dₙ
              handed  │ lost            dₖ is the first that the consumer refuses, if it refuses any

`Delivers` follows a consumer from one diagnostic to the next, whatever its states are and whenever
it refuses; `DiagnosticPool.delivery` reads off a report what its consumer was handed, by a record
that the consumer keeps.  The two agree, and the report is the same without the record
(`DiagnosticPool.delivers_delivery`).  A reporter counts what it is handed, to the last, because it
counts before its writer can fail (`Reporter.exists_state_eq`).
-/

namespace DeclFront

variable {ε σ : Type}

/-! ## What comes of a report -/

/-- What comes of a report: the diagnostics handed to the consumer, those lost behind a refused one,
why that one was refused, and the state that the consumer is left in. -/
structure Delivery (ε σ : Type) where
  handed : List Diagnostic
  lost : List Diagnostic
  fault? : Option ε
  state : σ

namespace Delivery

/-- The delivery with one more diagnostic handed over, at the front. -/
def cons (d : Diagnostic) (delivery : Delivery ε σ) : Delivery ε σ :=
  ⟨d :: delivery.handed, delivery.lost, delivery.fault?, delivery.state⟩

/-- The delivery with the consumer in another state. -/
def withState {τ : Type} (delivery : Delivery ε σ) (state : τ) : Delivery ε τ :=
  ⟨delivery.handed, delivery.lost, delivery.fault?, state⟩

/-- The outcome for whoever reports. -/
def result (delivery : Delivery ε σ) : EStateM.Result ε σ Unit :=
  match delivery.fault? with
  | none => .ok () delivery.state
  | some fault => .error fault delivery.state

@[simp] theorem result_cons (d : Diagnostic) (delivery : Delivery ε σ) :
    (delivery.cons d).result = delivery.result := rfl

end Delivery

/-- The consumer takes the waiting diagnostics one by one, up to the first that it refuses. -/
inductive Delivers (consumer : DiagnosticConsumer ε σ) :
    (state : σ) → (waiting : List Diagnostic) → Delivery ε σ → Prop where
  | done (state : σ) : Delivers consumer state [] ⟨[], [], none, state⟩
  | taken {state next : σ} {d : Diagnostic} {waiting : List Diagnostic} {delivery : Delivery ε σ}
      (htaken : consumer d state = .ok () next) (hnext : Delivers consumer next waiting delivery) :
      Delivers consumer state (d :: waiting) (delivery.cons d)
  | refused {state next : σ} {d : Diagnostic} {fault : ε} (waiting : List Diagnostic)
      (hrefused : consumer d state = .error fault next) :
      Delivers consumer state (d :: waiting) ⟨[d], waiting, some fault, next⟩

namespace Delivers

variable {consumer : DiagnosticConsumer ε σ} {state : σ} {waiting : List Diagnostic}
  {delivery : Delivery ε σ}

/-- All that waited is handed over or lost, in order. -/
theorem handed_append_lost (h : Delivers consumer state waiting delivery) :
    delivery.handed ++ delivery.lost = waiting := by
  induction h with
  | done => rfl
  | taken _ _ ih => exact congrArg _ ih
  | refused => rfl

/-- Nothing is lost unless something was refused. -/
theorem fault?_isSome_of_lost_ne_nil (h : Delivers consumer state waiting delivery)
    (hlost : delivery.lost ≠ []) : delivery.fault?.isSome = true := by
  induction h with
  | done => exact absurd rfl hlost
  | taken _ _ ih => exact ih hlost
  | refused => rfl

end Delivers

/-! ## The record of a report -/

namespace DiagnosticConsumer

/-- The consumer, with a record of what it has been handed. -/
def recording (consumer : DiagnosticConsumer ε σ) :
    DiagnosticConsumer ε (σ × List Diagnostic) := fun d (state, handed) =>
  match consumer d state with
  | .ok () next => .ok () (next, handed ++ [d])
  | .error fault next => .error fault (next, handed ++ [d])

end DiagnosticConsumer

namespace DiagnosticPool

/-- What comes of a report, by the record of its consumer. -/
def delivery (pool : DiagnosticPool) (consumer : DiagnosticConsumer ε σ) (state : σ) :
    Delivery ε σ :=
  match (pool.report consumer.recording (state, [])).1 with
  | .ok () (next, handed) => ⟨handed, pool.diagnostics.drop handed.length, none, next⟩
  | .error fault (next, handed) =>
    ⟨handed, pool.diagnostics.drop handed.length, some fault, next⟩

end DiagnosticPool

section Loop

variable {α : Type} {f : α → EStateM ε σ Unit} {a : α} {as : List α} {state next : σ} {fault : ε}

/-- The loop goes on when a diagnostic is taken. -/
theorem forM_cons_of_ok (h : f a state = .ok () next) :
    (a :: as).forM f state = as.forM f next := by
  change EStateM.bind (f a) (fun _ => as.forM f) state = _
  rw [EStateM.bind, h]

theorem forM_cons_of_error (h : f a state = .error fault next) :
    (a :: as).forM f state = .error fault next := by
  change EStateM.bind (f a) (fun _ => as.forM f) state = _
  rw [EStateM.bind, h]

/-- **The loop over the diagnostics delivers them**, and a record of it is the list handed over. -/
theorem exists_delivers (consumer : DiagnosticConsumer ε σ) (state : σ)
    (waiting record : List Diagnostic) :
    ∃ delivery, Delivers consumer state waiting delivery ∧
      waiting.forM consumer state = delivery.result ∧
      waiting.forM consumer.recording (state, record) =
        (delivery.withState (delivery.state, record ++ delivery.handed)).result := by
  induction waiting generalizing state record with
  | nil => exact ⟨_, .done state, rfl, by rw [List.append_nil]; rfl⟩
  | cons d waiting ih =>
    cases h : consumer d state with
    | ok value next =>
      obtain ⟨delivery, hdelivers, hresult, hrecord⟩ := ih next (record ++ [d])
      have hrecording : consumer.recording d (state, record) = .ok () (next, record ++ [d]) := by
        rw [DiagnosticConsumer.recording, h]
      refine ⟨delivery.cons d, .taken h hdelivers, ?_, ?_⟩
      · rw [forM_cons_of_ok h, hresult, Delivery.result_cons]
      · rw [forM_cons_of_ok hrecording, hrecord, List.append_assoc, List.singleton_append]
        rfl
    | error fault next =>
      have hrecording :
          consumer.recording d (state, record) = .error fault (next, record ++ [d]) := by
        rw [DiagnosticConsumer.recording, h]
      exact ⟨_, .refused waiting h, forM_cons_of_error h, forM_cons_of_error hrecording⟩

end Loop

namespace DiagnosticPool

/-- **A report delivers what the pool holds** and leaves the pool empty. -/
theorem delivers_delivery (pool : DiagnosticPool) (consumer : DiagnosticConsumer ε σ) (state : σ) :
    Delivers consumer state pool.diagnostics (pool.delivery consumer state) ∧
      pool.report consumer state = ((pool.delivery consumer state).result, ∅) := by
  obtain ⟨delivery, hdelivers, hresult, hrecord⟩ :=
    exists_delivers consumer state pool.diagnostics []
  have hlost : pool.diagnostics.drop delivery.handed.length = delivery.lost := by
    rw [← hdelivers.handed_append_lost, List.drop_left]
  have hdelivery : pool.delivery consumer state = delivery := by
    have hreport : pool.report consumer.recording (state, []) =
        ((delivery.withState (delivery.state, delivery.handed)).result, ∅) :=
      Prod.ext hrecord rfl
    rw [DiagnosticPool.delivery, hreport]
    obtain ⟨handed, lost, fault?, state⟩ := delivery
    cases fault? <;> exact congrArg (Delivery.mk handed · _ state) hlost
  rw [hdelivery]
  exact ⟨hdelivers, Prod.ext hresult rfl⟩

end DiagnosticPool

/-! ## Reporters -/

namespace Reporter

variable {ω : Type} {write : LineWriter ε ω}

@[simp] theorem withWriter_withWriter (r : Reporter ω) (writer writer' : ω) :
    (r.withWriter writer).withWriter writer' = r.withWriter writer' := rfl

/-- Counting does not look at the writer. -/
@[simp] theorem count_withWriter (r : Reporter ω) (d : Diagnostic) (writer : ω) :
    (r.withWriter writer).count d = (r.count d).withWriter writer := by
  rw [count, count]
  cases d.severity <;> rfl

theorem foldl_count_withWriter (r : Reporter ω) (ds : List Diagnostic) (writer : ω) :
    ds.foldl count (r.withWriter writer) = (ds.foldl count r).withWriter writer := by
  induction ds generalizing r with
  | nil => rfl
  | cons d ds ih => rw [List.foldl_cons, List.foldl_cons, count_withWriter, ih]

/-- How many diagnostics of a severity have been counted. -/
def counted (r : Reporter ω) : Severity → Nat
  | .error => r.errors
  | .warning => r.warnings

/-- A diagnostic counts for its own severity. -/
theorem counted_count (r : Reporter ω) (d : Diagnostic) (severity : Severity) :
    (r.count d).counted severity =
      r.counted severity + if d.severity = severity then 1 else 0 := by
  rw [count]
  cases d.severity <;> cases severity <;> rfl

/-- Diagnostics count one by one, each for its severity. -/
theorem counted_foldl_count (r : Reporter ω) (ds : List Diagnostic) (severity : Severity) :
    (ds.foldl count r).counted severity =
      r.counted severity + ds.countP (·.severity = severity) := by
  induction ds generalizing r with
  | nil => rfl
  | cons d ds ih =>
    rw [List.foldl_cons, ih, counted_count, List.countP_cons]
    simp only [decide_eq_true_eq]
    omega

/-- The counts of `r'` are those of `r` and of some diagnostics more, by their severities. -/
structure Counts (r : Reporter ω) (ds : List Diagnostic) (r' : Reporter ω) : Prop where
  errors_eq : r'.errors = r.errors + ds.countP (·.severity = .error)
  warnings_eq : r'.warnings = r.warnings + ds.countP (·.severity = .warning)
  sum_eq : r'.errors + r'.warnings = r.errors + r.warnings + ds.length

/-- Every diagnostic is an error or a warning. -/
theorem countP_error_add_countP_warning (ds : List Diagnostic) :
    ds.countP (·.severity = .error) + ds.countP (·.severity = .warning) = ds.length := by
  rw [List.length_eq_countP_add_countP (·.severity = .error)]
  congr 2
  funext d
  cases d.severity <;> rfl

/-- **One by one, a reporter counts all diagnostics by their severities.** -/
theorem counts_foldl_count (r : Reporter ω) (ds : List Diagnostic) (writer : ω) :
    r.Counts ds ((ds.foldl count r).withWriter writer) where
  errors_eq := counted_foldl_count r ds .error
  warnings_eq := counted_foldl_count r ds .warning
  sum_eq := by
    have herrors := counted_foldl_count r ds .error
    have hwarnings := counted_foldl_count r ds .warning
    simp only [counted] at herrors hwarnings
    rw [withWriter, herrors, hwarnings, ← countP_error_add_countP_warning ds]
    omega

/-- A diagnostic is counted, whether the writer takes its line or refuses it. -/
theorem exists_consume_eq (write : LineWriter ε ω) (d : Diagnostic) (r : Reporter ω) :
    ∃ writer, consume write d r = .ok () ((r.count d).withWriter writer) ∨
      ∃ fault, consume write d r = .error fault ((r.count d).withWriter writer) := by
  have hconsume : consume write d r = Reporter.write write ((r.count d).line d) (r.count d) := rfl
  rw [hconsume, Reporter.write]
  cases write ((r.count d).line d) (r.count d).writer with
  | ok value writer => exact ⟨writer, .inl rfl⟩
  | error fault writer => exact ⟨writer, .inr ⟨fault, rfl⟩⟩

/-- **A reporter counts what it is handed**, one by one. -/
theorem exists_state_eq {r : Reporter ω} {waiting : List Diagnostic}
    {delivery : Delivery ε (Reporter ω)} (h : Delivers (consume write) r waiting delivery) :
    ∃ writer, delivery.state = (delivery.handed.foldl count r).withWriter writer := by
  induction h with
  | done r => exact ⟨r.writer, rfl⟩
  | @taken r next d waiting delivery htaken hnext ih =>
    obtain ⟨writer, hstate⟩ := ih
    obtain ⟨between, hconsume | ⟨fault, hconsume⟩⟩ := exists_consume_eq write d r
    · obtain rfl : (r.count d).withWriter between = next :=
        (EStateM.Result.ok.inj (hconsume.symm.trans htaken)).2
      rw [foldl_count_withWriter, withWriter_withWriter] at hstate
      exact ⟨writer, hstate⟩
    · cases hconsume.symm.trans htaken
  | @refused r next d fault waiting hrefused =>
    obtain ⟨writer, hconsume | ⟨fault', hconsume⟩⟩ := exists_consume_eq write d r
    · cases hconsume.symm.trans hrefused
    · exact ⟨writer, (EStateM.Result.error.inj (hrefused.symm.trans hconsume)).2⟩

end Reporter

end DeclFront
