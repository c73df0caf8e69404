import Nbd.Failure
import Nbd.Stream.Poll

/-! # Byte sinks

A sink is a script of how its write calls will end: how many bytes a call takes
at most, or the fault it reports.  Each call uses up one item.  After the last
item every call takes all it is offered.
-/

namespace Nbd

/-- How a write call can end. -/
inductive SinkItem where
  /-- The call takes at most this many bytes. -/
  | accept (limit : Nat)
  | fault (fault : Fault)
  deriving DecidableEq, Repr

/-- How many of the `offered` bytes a call takes that ends like this. -/
def SinkItem.answer (offered : Nat) : SinkItem → Except Fault Nat
  | .accept limit => .ok (min limit offered)
  | .fault f => .error f

/-- A sink whose calls always answer. -/
abbrev Sink := List SinkItem

/-- One write call that offers `offered` bytes: how many of them are taken. -/
def Sink.call (offered : Nat) : Sink → Except Fault Nat × Sink
  | [] => (.ok offered, [])
  | item :: rest => (item.answer offered, rest)

/-- A sink whose calls may answer that they are not ready. -/
abbrev PollSink := List (Poll SinkItem)

/-- One write call that offers `offered` bytes.  A ready item answers just as it does
    in a sink that never suspends. -/
def PollSink.call (offered : Nat) : PollSink → Poll (Except Fault Nat) × PollSink
  | [] => (.ready (.ok offered), [])
  | .pending :: rest => (.pending, rest)
  | .ready item :: rest => (.ready (item.answer offered), rest)

/-! ## Progress

A call that reports a fault or suspends uses up an item; any other leaves the script
no longer than it was. -/

theorem Sink.length_le_of_call {offered : Nat} {s rest : Sink} {answer : Except Fault Nat}
    (called : s.call offered = (answer, rest)) : rest.length ≤ s.length := by
  cases s with
  | nil => simp_all [call]
  | cons item left =>
    simp only [call, Prod.mk.injEq] at called
    simp [← called.2]

theorem Sink.length_lt_of_call_error {offered : Nat} {s rest : Sink} {fault : Fault}
    (called : s.call offered = (.error fault, rest)) : rest.length < s.length := by
  cases s with
  | nil => simp [call] at called
  | cons item left =>
    simp only [call, Prod.mk.injEq] at called
    simp [← called.2]

theorem PollSink.length_le_of_call {offered : Nat} {s rest : PollSink}
    {answer : Poll (Except Fault Nat)} (called : s.call offered = (answer, rest)) :
    rest.length ≤ s.length := by
  cases s with
  | nil => simp_all [call]
  | cons item left => cases item <;> simp_all [call]

theorem PollSink.length_lt_of_call {offered : Nat} {s rest : PollSink}
    {answer : Poll (Except Fault Nat)} (called : s.call offered = (answer, rest))
    (stopped : ∀ n, answer ≠ .ready (.ok n)) : rest.length < s.length := by
  cases s with
  | nil =>
    simp only [call, Prod.mk.injEq] at called
    exact absurd called.1.symm (stopped _)
  | cons item left => cases item <;> simp_all [call]

end Nbd
