import Nbd.Failure

/-! # Log events

A library call returns the events it logged beside its result, so the log is an
ordinary value: an `Answer` is a result together with its events, in the order
they were logged.
-/

namespace Nbd

inductive Event where
  /-- A message of that codec and width was written in full. -/
  | wrote (codec : String) (size : Nat)
  /-- A message of that codec and width was read in full. -/
  | read (codec : String) (size : Nat)
  /-- The input ended before a message of that codec was complete. -/
  | truncated (codec : String) (expected actual : Nat)
  /-- A command code without an entry in the trait table was looked up. -/
  | unknownCommand (code : UInt16)
  deriving DecidableEq, Repr

namespace Event

inductive Level where
  | trace
  | debug
  deriving DecidableEq, Repr

def Level.name : Level → String
  | .trace => "TRACE"
  | .debug => "DEBUG"

/-- Successes are traced; whatever a peer did wrong is for debugging. -/
def level : Event → Level
  | .wrote _ _ => .trace
  | .read _ _ => .trace
  | .truncated _ _ _ => .debug
  | .unknownCommand _ => .debug

def message : Event → String
  | .wrote _ _ => "wrote"
  | .read _ _ => "read"
  | .truncated _ _ _ => "truncated input"
  | .unknownCommand _ => "command code not in trait table"

inductive Value where
  | text (s : String)
  | number (n : Nat)
  deriving DecidableEq, Repr

def fields : Event → List (String × Value)
  | .wrote codec size => [("kind", .text codec), ("size", .number size)]
  | .read codec size => [("kind", .text codec), ("size", .number size)]
  | .truncated codec expected actual =>
    [("kind", .text codec), ("expected", .number expected), ("actual", .number actual)]
  | .unknownCommand code => [("code", .number code.toNat)]

end Event

/-! ## Answers -/

structure Answer (α : Type) where
  result : Except Failure α
  events : List Event

namespace Answer

variable {α β : Type}

/-- A result that logs nothing. -/
def quiet (result : Except Failure α) : Answer α := ⟨result, []⟩

def map (f : α → β) (a : Answer α) : Answer β := ⟨a.result.map f, a.events⟩

instance : Functor Answer where
  map := map

end Answer

end Nbd
