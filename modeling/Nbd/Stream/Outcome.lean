import Nbd.Codec

/-! # Outcomes of stream calls

What reading or writing one message over a stream leaves behind: a result, the
events logged, and what remains of the stream.  The two modes of operation move
bytes in loops of their own and share what is said here about the bytes once they
have been moved.
-/

namespace Nbd

/-! ## Reading -/

/-- Why fewer bytes arrived than were asked for. -/
inductive Shortfall where
  /-- The stream ended after `arrived` bytes. -/
  | endOfStream (arrived : Nat)
  | fault (fault : Fault)
  deriving DecidableEq, Repr

structure Received (σ α : Type) extends Answer α where
  rest : σ

namespace Received

variable {σ α β : Type}

def map (f : α → β) (r : Received σ α) : Received σ β := { r with toAnswer := r.toAnswer.map f }

instance : Functor (Received σ) where
  map := map

end Received

/-- The answer to a read that ended with these bytes or with a shortfall. -/
def Codec.received (α : Type) [Codec α] : Except Shortfall Bytes → Answer α
  | .ok input =>
    let answer := Codec.decode α input
    { answer with events := .read (Codec.name α) (Codec.width α) :: answer.events }
  | .error (.endOfStream arrived) => Codec.truncated α arrived
  | .error (.fault fault) => .quiet (.error (.source fault))

/-! ## Writing -/

structure Written (τ : Type) where
  result : Except Fault Unit
  /-- The bytes the sink took, whether or not the write was completed. -/
  taken : Bytes
  rest : τ

/-- The same outcome after the sink has taken some bytes before. -/
def Written.after {τ : Type} (bytes : Bytes) (w : Written τ) : Written τ :=
  { w with taken := bytes ++ w.taken }

structure Delivered (τ : Type) extends Answer Unit where
  /-- The bytes the sink took, whether or not the write was completed. -/
  taken : Bytes
  rest : τ

/-- The outcome of a message whose bytes were offered to a sink with outcome `w`. -/
def Codec.delivered (α : Type) [Codec α] {τ : Type} (w : Written τ) : Delivered τ where
  toAnswer := match w.result with
    | .ok () => ⟨.ok (), [.wrote (Codec.name α) (Codec.width α)]⟩
    | .error fault => .quiet (.error (.sink fault))
  taken := w.taken
  rest := w.rest

end Nbd
