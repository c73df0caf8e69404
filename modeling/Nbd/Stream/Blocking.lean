import Nbd.Stream.Outcome
import Nbd.Stream.Sink
import Nbd.Stream.Source

/-! # Blocking streams

Reading and writing whole messages when every call waits for its answer.  A read
collects bytes until the message is complete and asks for no more than that; a
write offers what has not been taken until nothing is left.  Both make an
interrupted call again.
-/

namespace Nbd.Blocking

/-! ## Reading -/

section

variable {σ : Type} [Readable σ (.ok [] : Except Fault Bytes)]

/-- Collects bytes until there are `width` of them, `filled` being those that have
    arrived.  Bytes that arrived before a shortfall are gone. -/
def fill (width : Nat) (filled : Bytes) (s : σ) : Except Shortfall Bytes × σ :=
  if _missing : filled.length < width then
    match _called : Readable.call (width - filled.length) s with
    | (.ok [], rest) => (.error (.endOfStream filled.length), rest)
    | (.ok (b :: bs), rest) => fill width (filled ++ b :: bs) rest
    | (.error fault, rest) =>
      if fault.kind = .interrupted then fill width filled rest
      else (.error (.fault fault), rest)
  else (.ok filled, s)
termination_by Readable.weight s
decreasing_by
  all_goals exact Readable.weight_lt_of_call (by omega) _called (by simp)

/-- Reads exactly one message. -/
def read (α : Type) [Codec α] (s : σ) : Received σ α :=
  let (collected, rest) := fill (Codec.width α) [] s
  { Codec.received α collected with rest }

end

/-! ## Writing -/

/-- The fault of a sink that takes nothing. -/
def noProgress : Fault := ⟨.writeZero, "failed to write whole buffer"⟩

/-- Offers bytes until the sink has taken all of them. -/
def drain (unsent : Bytes) (s : Sink) : Written Sink :=
  if _left : 0 < unsent.length then
    match _called : s.call unsent.length with
    | (.ok 0, rest) => ⟨.error noProgress, [], rest⟩
    | (.ok (n + 1), rest) => (drain (unsent.drop (n + 1)) rest).after (unsent.take (n + 1))
    | (.error fault, rest) =>
      if fault.kind = .interrupted then drain unsent rest else ⟨.error fault, [], rest⟩
  else ⟨.ok (), [], s⟩
termination_by unsent.length + s.length
decreasing_by
  · have := Sink.length_le_of_call _called
    simp only [List.length_drop]
    omega
  · have := Sink.length_lt_of_call_error _called
    omega

/-- Writes one message. -/
def write {α : Type} [Codec α] (v : α) (s : Sink) : Delivered Sink :=
  Codec.delivered α (drain (Codec.encode v) s)

end Nbd.Blocking
