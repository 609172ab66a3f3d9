import DeclFront.Diagnostic.Basic

/-!
# Diagnostic/Pool — diagnostics that wait to be reported

A `DiagnosticPool` keeps diagnostics in the order in which they were added. It hands them over all
at once, by `drain` or to a consumer by `report`, and is empty afterwards, also when the consumer
refuses one of them: those behind the refused one are dropped.
-/

namespace DeclFront

/-- What takes diagnostics one by one; it may refuse one, and keeps its state when it does. -/
abbrev DiagnosticConsumer (ε σ : Type) := Diagnostic → EStateM ε σ Unit

/-- Diagnostics in the order in which they were added. -/
structure DiagnosticPool where
  diagnostics : List Diagnostic
deriving DecidableEq, Repr

namespace DiagnosticPool

/-- The pool that nothing has been added to. -/
def empty : DiagnosticPool := ⟨[]⟩

instance : EmptyCollection DiagnosticPool := ⟨empty⟩

/-- Adds a diagnostic behind the others. -/
def push (pool : DiagnosticPool) (d : Diagnostic) : DiagnosticPool := ⟨pool.diagnostics ++ [d]⟩

/-- Adds an error. -/
def error (pool : DiagnosticPool) (message : String) (range : Range) : DiagnosticPool :=
  pool.push ⟨.error, message, range⟩

/-- Adds a warning. -/
def warning (pool : DiagnosticPool) (message : String) (range : Range) : DiagnosticPool :=
  pool.push ⟨.warning, message, range⟩

/-- Adds several diagnostics in order. -/
def pushAll (pool : DiagnosticPool) (ds : List Diagnostic) : DiagnosticPool :=
  ds.foldl push pool

/-- The number of diagnostics that wait. -/
def size (pool : DiagnosticPool) : Nat := pool.diagnostics.length

/-- Nothing waits to be reported. -/
def isEmpty (pool : DiagnosticPool) : Bool := pool.diagnostics.isEmpty

/-- One of the diagnostics that wait is an error. -/
def hasErrors (pool : DiagnosticPool) : Bool := pool.diagnostics.any Diagnostic.isError

/-- The diagnostics, and the pool that is left. -/
def drain (pool : DiagnosticPool) : List Diagnostic × DiagnosticPool := (pool.diagnostics, ∅)

/-- Drops the diagnostics. -/
def clear (_ : DiagnosticPool) : DiagnosticPool := ∅

/-- Hands the diagnostics to a consumer in order, up to the first that it refuses: the outcome for
the consumer, and the pool that is left. -/
def report {ε σ : Type} (pool : DiagnosticPool) (consumer : DiagnosticConsumer ε σ) (state : σ) :
    EStateM.Result ε σ Unit × DiagnosticPool :=
  let (waiting, left) := pool.drain
  ((waiting.forM consumer).run state, left)

end DiagnosticPool

end DeclFront
