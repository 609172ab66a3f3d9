import DeclFront.Proofs.Diagnostic.Delivery
import Mathlib.Data.List.DropRight
import Mathlib.Data.List.Induction

/-!
# Proofs/Diagnostic/Session — a pool and its consumers, through all that is done with them

    added        a₁ a₂ │ a₃ a₄ a₅ │ a₆ │ a₇ a₈
    taken out    drain   report     clear  (waiting)

An operation that empties the pool takes out what has been added since the last one that did, so
what a session adds is taken out stretch by stretch, each diagnostic once, and the last stretch is
still waiting (`flatMap_added_eq`).  What a report does with its stretch is `Delivers`; the consumer
that it goes to is the only one that changes (`Reports`), so a reporter counts over the whole
session what has been handed to it (`exists_consumers_eq_reporter`).  All of it holds after every
operation of every session (`accounts`).
-/

namespace DeclFront

variable {ι : Type}

/-! ## Operations -/

/-- What is done with a pool; a report names the consumer that it goes to. -/
inductive PoolOperation (ι : Type) where
  | push (d : Diagnostic)
  | error (message : String) (range : Range)
  | warning (message : String) (range : Range)
  | iter
  | drain
  | clear
  | report (consumer : ι)

namespace PoolOperation

/-- What the operation adds to the pool. -/
def added : PoolOperation ι → List Diagnostic
  | push d => [d]
  | error message range => [⟨.error, message, range⟩]
  | warning message range => [⟨.warning, message, range⟩]
  | _ => []

/-- The operation leaves nothing in the pool. -/
def empties : PoolOperation ι → Bool
  | drain | clear | report _ => true
  | _ => false

/-- What has been added since the last operation that empties the pool. -/
def addedSince (operations : List (PoolOperation ι)) : List Diagnostic :=
  (operations.rtakeWhile (!·.empties)).flatMap added

/-- An operation more empties the stretch or adds to it. -/
theorem addedSince_concat (operations : List (PoolOperation ι)) (operation : PoolOperation ι) :
    addedSince (operations ++ [operation]) =
      if operation.empties then [] else addedSince operations ++ operation.added := by
  rw [addedSince, List.rtakeWhile_concat]
  cases operation.empties with
  | true => rfl
  | false => simp [addedSince]

/-- No operation both empties the pool and adds to it. -/
theorem added_eq_nil_of_empties {operation : PoolOperation ι} (h : operation.empties = true) :
    operation.added = [] := by
  cases operation <;> first | rfl | cases h

end PoolOperation

/-! ## Sessions -/

/-- The pool holds some diagnostics, and all that it tells of itself is about them. -/
structure DiagnosticPool.Holds (pool : DiagnosticPool) (ds : List Diagnostic) : Prop where
  diagnostics_eq : pool.diagnostics = ds
  size_eq : pool.size = ds.length
  isEmpty_iff : pool.isEmpty = true ↔ ds = []
  hasErrors_iff : pool.hasErrors = true ↔ ∃ d ∈ ds, d.severity = .error

/-- Whatever a pool holds, it tells the truth about it. -/
theorem DiagnosticPool.holds_mk (ds : List Diagnostic) : Holds ⟨ds⟩ ds where
  diagnostics_eq := rfl
  size_eq := rfl
  isEmpty_iff := List.isEmpty_iff
  hasErrors_iff := by simp [hasErrors, Diagnostic.isError]

/-- A consumer and the state that it is in. -/
structure Consumer where
  Fault : Type
  State : Type
  consume : DiagnosticConsumer Fault State
  state : State

namespace Consumer

/-- The consumer in another state. -/
def withState (c : Consumer) (state : c.State) : Consumer := ⟨c.Fault, c.State, c.consume, state⟩

/-- The consumer after a report with this outcome. -/
def behind (c : Consumer) : EStateM.Result c.Fault c.State Unit → Consumer
  | .ok _ state => c.withState state
  | .error _ state => c.withState state

/-- A delivery leaves its consumer in the state that it says. -/
theorem behind_result (c : Consumer) (delivery : Delivery c.Fault c.State) :
    c.behind delivery.result = c.withState delivery.state := by
  rw [Delivery.result]
  cases delivery.fault? <;> rfl

/-- A reporter as a consumer. -/
def reporter {ε ω : Type} (write : LineWriter ε ω) (r : Reporter ω) : Consumer :=
  ⟨ε, Reporter ω, Reporter.consume write, r⟩

/-- **A reporter counts** what a report hands to it. -/
theorem exists_withState_eq_reporter {ε ω : Type} {write : LineWriter ε ω} {r : Reporter ω}
    {c : Consumer} (hc : c = reporter write r) {waiting : List Diagnostic}
    {delivery : Delivery c.Fault c.State} (h : Delivers c.consume c.state waiting delivery) :
    ∃ writer, c.withState delivery.state =
      reporter write ((delivery.handed.foldl Reporter.count r).withWriter writer) := by
  subst hc
  obtain ⟨writer, hstate⟩ := Reporter.exists_state_eq h
  exact ⟨writer, congrArg (reporter write r).withState hstate⟩

end Consumer

/-- What an operation does with the diagnostics that it finds in the pool. -/
inductive PoolEvent (ι : Type) where
  | kept
  /-- They are shown, and stay. -/
  | listed (ds : List Diagnostic)
  | drained (ds : List Diagnostic)
  | cleared (ds : List Diagnostic)
  /-- Some are handed to a consumer; if it has refused the last of them, others may be lost. -/
  | reported (consumer : ι) (handed lost : List Diagnostic) (refused : Bool)

namespace PoolEvent

/-- What the operation hands to its caller or to a consumer, out of the pool. -/
def handedOut : PoolEvent ι → List Diagnostic
  | drained ds => ds
  | reported _ handed _ _ => handed
  | _ => []

/-- What the operation drops. -/
def dropped : PoolEvent ι → List Diagnostic
  | cleared ds => ds
  | reported _ _ lost _ => lost
  | _ => []

/-- What the operation takes out of the pool. -/
def takenOut (event : PoolEvent ι) : List Diagnostic := event.handedOut ++ event.dropped

/-- What is handed to a consumer. -/
def handedTo [DecidableEq ι] (i : ι) : PoolEvent ι → List Diagnostic
  | reported consumer handed _ _ => if consumer = i then handed else []
  | _ => []

end PoolEvent

/-- A pool and the consumers that it may be reported to. -/
structure Session (ι : Type) where
  pool : DiagnosticPool
  consumers : ι → Consumer

namespace Session

open PoolOperation (added addedSince)

variable [DecidableEq ι]

/-- An empty pool and its consumers. -/
def start (consumers : ι → Consumer) : Session ι := ⟨∅, consumers⟩

/-- Reports the pool to a consumer. -/
def report (s : Session ι) (i : ι) : PoolEvent ι × Session ι :=
  let c := s.consumers i
  let delivery := s.pool.delivery c.consume c.state
  let (result, left) := s.pool.report c.consume c.state
  (.reported i delivery.handed delivery.lost delivery.fault?.isSome,
    ⟨left, Function.update s.consumers i (c.behind result)⟩)

/-- One operation: what it does with the diagnostics, and the session after it. -/
def step (s : Session ι) : PoolOperation ι → PoolEvent ι × Session ι
  | .push d => (.kept, ⟨s.pool.push d, s.consumers⟩)
  | .error message range => (.kept, ⟨s.pool.error message range, s.consumers⟩)
  | .warning message range => (.kept, ⟨s.pool.warning message range, s.consumers⟩)
  | .iter => (.listed s.pool.diagnostics, s)
  | .drain => (.drained s.pool.drain.1, ⟨s.pool.drain.2, s.consumers⟩)
  | .clear => (.cleared s.pool.diagnostics, ⟨s.pool.clear, s.consumers⟩)
  | .report i => s.report i

/-- The session after some operations. -/
def after (s : Session ι) (operations : List (PoolOperation ι)) : Session ι :=
  operations.foldl (fun s operation => (s.step operation).2) s

/-- What some operations do, one after another. -/
def events (s : Session ι) : List (PoolOperation ι) → List (PoolEvent ι)
  | [] => []
  | operation :: operations =>
    (s.step operation).1 :: (s.step operation).2.events operations

variable {s : Session ι} {operation : PoolOperation ι} {operations : List (PoolOperation ι)}

theorem after_concat (s : Session ι) (operations : List (PoolOperation ι))
    (operation : PoolOperation ι) :
    s.after (operations ++ [operation]) = ((s.after operations).step operation).2 := by
  rw [after, List.foldl_concat]
  rfl

theorem events_concat (s : Session ι) (operations : List (PoolOperation ι))
    (operation : PoolOperation ι) :
    s.events (operations ++ [operation]) =
      s.events operations ++ [((s.after operations).step operation).1] := by
  induction operations generalizing s with
  | nil => rfl
  | cons first operations ih => rw [List.cons_append, events, ih]; rfl

/-! ### One operation -/

/-- What a report to a consumer does: it delivers what was waiting, comes back with the outcome and
an empty pool, and leaves that consumer in its new state and every other as it was. -/
structure Reports (s : Session ι) (i : ι) (waiting : List Diagnostic)
    (delivery : Delivery (s.consumers i).Fault (s.consumers i).State) : Prop where
  delivers : Delivers (s.consumers i).consume (s.consumers i).state waiting delivery
  report_eq : s.pool.report (s.consumers i).consume (s.consumers i).state = (delivery.result, ∅)
  step_eq : s.step (.report i) =
    (.reported i delivery.handed delivery.lost delivery.fault?.isSome,
      ⟨∅, Function.update s.consumers i ((s.consumers i).withState delivery.state)⟩)

/-- **A report delivers what the pool holds.** -/
theorem exists_reports (s : Session ι) (i : ι) :
    ∃ delivery, s.Reports i s.pool.diagnostics delivery := by
  obtain ⟨hdelivers, hreport⟩ :=
    s.pool.delivers_delivery (s.consumers i).consume (s.consumers i).state
  refine ⟨_, hdelivers, hreport, ?_⟩
  rw [step, report, hreport, ← Consumer.behind_result]

/-- An operation that empties the pool takes out what is in it; every other keeps that and adds its
own. -/
theorem pool_step (s : Session ι) (operation : PoolOperation ι) :
    (s.step operation).2.pool =
      if operation.empties then ∅ else ⟨s.pool.diagnostics ++ operation.added⟩ := by
  cases operation with
  | report i =>
    obtain ⟨delivery, hreports⟩ := s.exists_reports i
    rw [hreports.step_eq]
    rfl
  | iter => exact congrArg DiagnosticPool.mk (List.append_nil _).symm
  | _ => rfl

/-- An operation takes all diagnostics out of the pool or none. -/
theorem takenOut_step (s : Session ι) (operation : PoolOperation ι) :
    (s.step operation).1.takenOut = if operation.empties then s.pool.diagnostics else [] := by
  cases operation with
  | report i =>
    obtain ⟨delivery, hreports⟩ := s.exists_reports i
    rw [hreports.step_eq]
    exact hreports.delivers.handed_append_lost
  | drain => exact List.append_nil _
  | _ => rfl

/-- What is dropped is cleared, or stands behind a diagnostic that was refused. -/
theorem dropped_step (h : (s.step operation).1.dropped ≠ []) :
    (∃ ds, (s.step operation).1 = .cleared ds) ∨
      ∃ i handed lost, (s.step operation).1 = .reported i handed lost true := by
  cases operation with
  | report i =>
    obtain ⟨delivery, hreports⟩ := s.exists_reports i
    rw [hreports.step_eq] at h ⊢
    exact .inr ⟨i, _, _, by rw [hreports.delivers.fault?_isSome_of_lost_ne_nil h]⟩
  | clear => exact .inl ⟨_, rfl⟩
  | _ => exact absurd rfl h

/-- A reporter counts what an operation hands to it. -/
theorem exists_consumers_step_eq_reporter {ε ω : Type} {write : LineWriter ε ω} {r : Reporter ω}
    {i : ι} (h : s.consumers i = .reporter write r) (operation : PoolOperation ι) :
    ∃ writer, (s.step operation).2.consumers i = .reporter write
      ((((s.step operation).1.handedTo i).foldl Reporter.count r).withWriter writer) := by
  cases operation with
  | report j =>
    obtain ⟨delivery, hreports⟩ := s.exists_reports j
    rw [hreports.step_eq]
    dsimp only [PoolEvent.handedTo]
    by_cases hj : j = i
    · subst hj
      rw [if_pos rfl, Function.update_self]
      exact Consumer.exists_withState_eq_reporter h hreports.delivers
    · rw [if_neg hj, Function.update_of_ne (Ne.symm hj)]
      exact ⟨r.writer, h⟩
  | _ => exact ⟨r.writer, h⟩

/-! ### Whole sessions -/

/-- **After each operation** the pool holds what has been added since it was last emptied. -/
theorem pool_after_start (consumers : ι → Consumer) (operations : List (PoolOperation ι)) :
    ((start consumers).after operations).pool = ⟨addedSince operations⟩ := by
  induction operations using List.reverseRecOn with
  | nil => rfl
  | append_singleton operations operation ih =>
    rw [after_concat, pool_step, ih, PoolOperation.addedSince_concat]
    split <;> rfl

/-- **What is added is taken out once**, stretch by stretch, or is still waiting. -/
theorem flatMap_added_eq (consumers : ι → Consumer) (operations : List (PoolOperation ι)) :
    operations.flatMap added =
      ((start consumers).events operations).flatMap PoolEvent.takenOut ++
        addedSince operations := by
  induction operations using List.reverseRecOn with
  | nil => rfl
  | append_singleton operations operation ih =>
    rw [List.flatMap_append, ih, events_concat, List.flatMap_append, PoolOperation.addedSince_concat,
      List.flatMap_singleton, List.flatMap_singleton, takenOut_step, pool_after_start]
    split
    · rename_i hempties
      rw [PoolOperation.added_eq_nil_of_empties hempties, List.append_nil]
    · rw [List.append_nil, List.append_assoc]

/-- Every event of a session is one step's. -/
theorem exists_step_of_mem_events {event : PoolEvent ι} (h : event ∈ s.events operations) :
    ∃ (t : Session ι) (operation : PoolOperation ι), event = (t.step operation).1 := by
  induction operations generalizing s with
  | nil => cases h
  | cons operation operations ih =>
    rcases List.mem_cons.1 h with rfl | h
    · exact ⟨s, operation, rfl⟩
    · exact ih h

/-- **A reporter counts** all that a session hands to it. -/
theorem exists_consumers_eq_reporter {ε ω : Type} {write : LineWriter ε ω} {r : Reporter ω} {i : ι}
    (h : s.consumers i = .reporter write r) (operations : List (PoolOperation ι)) :
    ∃ writer, (s.after operations).consumers i = .reporter write
      ((((s.events operations).flatMap (PoolEvent.handedTo i)).foldl Reporter.count r).withWriter
        writer) := by
  induction operations using List.reverseRecOn with
  | nil => exact ⟨r.writer, h⟩
  | append_singleton operations operation ih =>
    obtain ⟨before, hbefore⟩ := ih
    obtain ⟨writer, hstep⟩ := exists_consumers_step_eq_reporter hbefore operation
    refine ⟨writer, ?_⟩
    rw [after_concat, events_concat, List.flatMap_append, List.flatMap_singleton,
      List.foldl_append, hstep, Reporter.foldl_count_withWriter, Reporter.withWriter_withWriter]

/-! ## Accounts -/

/-- Where the diagnostics of a session go.  Each of the `operations` stands behind those of a
`front`; the session has an empty pool at first. -/
structure Accounts (consumers : ι → Consumer) (operations : List (PoolOperation ι)) : Prop where
  /-- After each operation the pool holds what has been added since it was last emptied. -/
  holds : ∀ front, front <+: operations →
    ((start consumers).after front).pool.Holds (addedSince front)
  /-- Listing shows just that, and changes nothing. -/
  lists : ∀ front, front ++ [.iter] <+: operations →
    ((start consumers).after front).step .iter =
      (.listed (addedSince front), (start consumers).after front)
  /-- Draining gives just that and leaves the pool empty. -/
  drains : ∀ front, front ++ [.drain] <+: operations →
    ((start consumers).after front).step .drain =
      (.drained (addedSince front), ⟨∅, ((start consumers).after front).consumers⟩)
  /-- So does a report, as far as its consumer takes it; no other consumer changes. -/
  reports : ∀ front i, front ++ [.report i] <+: operations →
    ∃ delivery, ((start consumers).after front).Reports i (addedSince front) delivery
  /-- All that is added is taken out once, stretch by stretch, or is still waiting. -/
  added_eq : operations.flatMap added =
    ((start consumers).events operations).flatMap PoolEvent.takenOut ++ addedSince operations
  /-- Nothing is lost but by clearing, and behind a diagnostic that was refused. -/
  dropped : ∀ event ∈ (start consumers).events operations, event.dropped ≠ [] →
    (∃ ds, event = .cleared ds) ∨ ∃ i handed lost, event = .reported i handed lost true
  /-- A reporter among the consumers has counted all that was handed to it. -/
  counts : ∀ i {ε ω : Type} (write : LineWriter ε ω) (r : Reporter ω),
    consumers i = .reporter write r →
      ∃ r' : Reporter ω, ((start consumers).after operations).consumers i = .reporter write r' ∧
        r.Counts (((start consumers).events operations).flatMap (PoolEvent.handedTo i)) r'

/-- **All diagnostics are accounted for**, in every session with any consumers. -/
theorem accounts (consumers : ι → Consumer) (operations : List (PoolOperation ι)) :
    Accounts consumers operations where
  holds front _ := by
    rw [pool_after_start]
    exact DiagnosticPool.holds_mk _
  lists front _ := by rw [step, pool_after_start]
  drains front _ := by rw [step, pool_after_start]; rfl
  reports front i _ := by
    obtain ⟨delivery, hreports⟩ := ((start consumers).after front).exists_reports i
    rw [pool_after_start] at hreports
    exact ⟨delivery, hreports⟩
  added_eq := flatMap_added_eq consumers operations
  dropped event hevent hdropped := by
    obtain ⟨t, operation, rfl⟩ := exists_step_of_mem_events hevent
    exact dropped_step hdropped
  counts i ε ω write r hr := by
    obtain ⟨writer, hafter⟩ := exists_consumers_eq_reporter (s := start consumers) hr operations
    exact ⟨_, hafter, r.counts_foldl_count _ writer⟩

/-- What stands behind a refused diagnostic is lost with the report, what is added later is not. -/
example (range : Range) :
    (start fun _ : Unit => ⟨_, _, .collectUpTo 1, []⟩).events
        [.error "a" range, .warning "b" range, .warning "c" range, .report (), .error "d" range,
          .drain] =
      [.kept, .kept, .kept,
        .reported () [⟨.error, "a", range⟩, ⟨.warning, "b", range⟩] [⟨.warning, "c", range⟩] true,
        .kept, .drained [⟨.error, "d", range⟩]] := rfl

end Session

end DeclFront
