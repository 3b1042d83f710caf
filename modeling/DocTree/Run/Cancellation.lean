/-!
# Cancellation

A run can be cancelled from outside. The request is a flag that can be raised, and lowered again.
-/

namespace DocTree

/-- Whether cancellation has been asked for. -/
structure CancelFlag where
  raised : Bool
  deriving DecidableEq, Repr

namespace CancelFlag

/-- Not raised. -/
def initial : CancelFlag := ⟨false⟩

/-- Ask for cancellation. -/
def cancel (_ : CancelFlag) : CancelFlag := ⟨true⟩

/-- Take the request back. -/
def reset (_ : CancelFlag) : CancelFlag := ⟨false⟩

/-- The flag in one line. -/
def summary (f : CancelFlag) : String :=
  "CancellationToken(cancelled=" ++ (if f.raised then "True" else "False") ++ ")"

end CancelFlag

end DocTree
