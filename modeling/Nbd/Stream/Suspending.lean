import Nbd.Stream.Outcome
import Nbd.Stream.Sink
import Nbd.Stream.Source

/-! # Suspending streams

Reading and writing whole messages when a call may answer that it is not ready.
The loop then gives way and later makes the same call again, with the bytes it has
collected or not yet sent still in hand.  In all else the loops keep the rules of
blocking streams; they word one fault differently.
-/

namespace Nbd.Suspending

/-! ## Reading -/

section

variable {σ : Type} [Readable σ (.ready (.ok []) : Poll (Except Fault Bytes))]

/-- Collects bytes until there are `width` of them, `filled` being those that have
    arrived.  They are kept over a suspension and gone after a shortfall. -/
def fill (width : Nat) (filled : Bytes) (s : σ) : Except Shortfall Bytes × σ :=
  if _missing : filled.length < width then
    match _called : Readable.call (width - filled.length) s with
    | (.pending, rest) => fill width filled rest
    | (.ready (.ok []), rest) => (.error (.endOfStream filled.length), rest)
    | (.ready (.ok (b :: bs)), rest) => fill width (filled ++ b :: bs) rest
    | (.ready (.error fault), rest) =>
      if fault.kind = .interrupted then fill width filled rest
      else (.error (.fault fault), rest)
  else (.ok filled, s)
termination_by Readable.weight s
decreasing_by
  all_goals exact Readable.weight_lt_of_call (by omega) _called (by simp)

/-- Reads exactly one message. -/
def read (α : Type) [Codec α] (s : σ) : Received σ α :=
  let (collected, rest) := fill (Codec.width α) [] s
  { Codec.received α collected with rest }

end

/-! ## Writing -/

/-- The fault of a sink that takes nothing. -/
def noProgress : Fault := ⟨.writeZero, "write zero"⟩

/-- Offers bytes until the sink has taken all of them.  This loop is not the protocol's
    own but the asynchronous `write_all` of the stream, and that it makes an interrupted
    call again is the assumption made of it. -/
def drain (unsent : Bytes) (s : PollSink) : Written PollSink :=
  if _left : 0 < unsent.length then
    match _called : s.call unsent.length with
    | (.pending, rest) => drain unsent rest
    | (.ready (.ok 0), rest) => ⟨.error noProgress, [], rest⟩
    | (.ready (.ok (n + 1)), rest) =>
      (drain (unsent.drop (n + 1)) rest).after (unsent.take (n + 1))
    | (.ready (.error fault), rest) =>
      if fault.kind = .interrupted then drain unsent rest else ⟨.error fault, [], rest⟩
  else ⟨.ok (), [], s⟩
termination_by unsent.length + s.length
decreasing_by
  · have := PollSink.length_lt_of_call _called (by simp)
    omega
  · have := PollSink.length_le_of_call _called
    simp only [List.length_drop]
    omega
  · have := PollSink.length_lt_of_call _called (by simp)
    omega

/-- Writes one message. -/
def write {α : Type} [Codec α] (v : α) (s : PollSink) : Delivered PollSink :=
  Codec.delivered α (drain (Codec.encode v) s)

end Nbd.Suspending
