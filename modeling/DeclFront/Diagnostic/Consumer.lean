import DeclFront.Diagnostic.Pool

/-!
# Diagnostic/Consumer — consumers that keep what they take

`DiagnosticConsumer.collect` takes every diagnostic and `collectUpTo` a bounded number of them.
-/

namespace DeclFront

/-- Why a consumer refuses a diagnostic: nothing more can be written to it. -/
inductive ConsumerFault where
  | closed
deriving DecidableEq, Repr

namespace DiagnosticConsumer

/-- Takes every diagnostic. -/
def collect : DiagnosticConsumer ConsumerFault (List Diagnostic) := fun d =>
  modify (· ++ [d])

/-- Takes diagnostics until it holds `limit` of them. -/
def collectUpTo (limit : Nat) : DiagnosticConsumer ConsumerFault (List Diagnostic) := fun d => do
  if (← get).length < limit then modify (· ++ [d]) else throw .closed

end DiagnosticConsumer

end DeclFront
