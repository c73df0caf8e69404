/-! # Failures

What can go wrong in this library, by cause.  A byte stream reports a `Fault` of
its own; the library turns it into a `Failure`, which also covers input that ends
too early and command codes nobody defined.  No partial value ever accompanies a
failure.

Faults are open-ended: every stream names the kinds it knows.  Two kinds have a
meaning here.  An `interrupted` call is made again, and `writeZero` is the fault
the library itself raises when a sink takes no bytes.
-/

namespace Nbd

structure FaultKind where
  name : String
  deriving DecidableEq, Repr

/-- The call was interrupted before it did anything; it can simply be made again. -/
def FaultKind.interrupted : FaultKind := ⟨"Interrupted"⟩

/-- The sink was offered bytes and took none. -/
def FaultKind.writeZero : FaultKind := ⟨"WriteZero"⟩

structure Fault where
  kind : FaultKind
  text : String
  deriving DecidableEq, Repr

inductive Failure where
  /-- Fewer bytes were available than the message is wide. -/
  | truncated (expected actual : Nat)
  | sink (fault : Fault)
  | source (fault : Fault)
  | unknownCommand (code : UInt16)
  deriving DecidableEq, Repr

namespace Failure

def message : Failure → String
  | .truncated expected actual => s!"truncated input: expected {expected} bytes, got {actual}"
  | .sink _ => "failed to write to sink"
  | .source _ => "failed to read from source"
  | .unknownCommand code => s!"unknown command type {code}"

def fault? : Failure → Option Fault
  | .sink fault => some fault
  | .source fault => some fault
  | .truncated _ _ => none
  | .unknownCommand _ => none

end Failure

end Nbd
