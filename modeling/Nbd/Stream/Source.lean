import Nbd.BigEndian
import Nbd.Failure
import Nbd.Stream.Poll

/-! # Byte sources

A source is a script of what its read calls will meet: chunks of data, ends of
stream and faults.  A call that asks for `n` bytes looks at the first item only.
From a chunk it takes at most `n` bytes, and the chunk stays in front until it is
used up; any other item is used up by the call.  After the last item every call
meets the end of stream.

A call cannot tell the end of stream from a read of nothing: both answer with no
bytes.  Whoever asks for at least one byte may take such an answer for the end.

Reading needs no more of a source than its calls, and that they use it up; whatever
has such calls is `Readable`.
-/

namespace Nbd

/-! ## Calls -/

/-- What can be read from: a call for at most so many bytes has an answer and leaves
    something behind.  A call for at least one byte leaves less than there was, unless
    it is answered with `nothing`. -/
class Readable (σ : Type) {ω : outParam Type} (nothing : outParam ω) where
  call : Nat → σ → ω × σ
  weight : σ → Nat
  weight_lt_of_call : ∀ {n : Nat} {s rest : σ} {answer : ω},
    0 < n → call n s = (answer, rest) → answer ≠ nothing → weight rest < weight s

/-! ## Scripts -/

/-- A run of at least one byte. -/
structure Chunk where
  head : UInt8
  tail : Bytes
  deriving DecidableEq, Repr

def Chunk.bytes (c : Chunk) : Bytes := c.head :: c.tail

/-- What a read call can meet. -/
inductive SourceItem where
  | data (chunk : Chunk)
  | endOfStream
  | fault (fault : Fault)
  deriving DecidableEq, Repr

/-- A source whose calls always answer. -/
abbrev Source := List SourceItem

namespace Source

/-- Puts bytes back in front of a source; no bytes are no item. -/
def push : Bytes → Source → Source
  | [], s => s
  | b :: bs, s => .data ⟨b, bs⟩ :: s

/-- All data still in a source, in order. -/
def contents : Source → Bytes
  | [] => []
  | .data chunk :: rest => chunk.bytes ++ contents rest
  | .endOfStream :: rest => contents rest
  | .fault _ :: rest => contents rest

/-- One read call for at most `n` bytes. -/
def call (n : Nat) : Source → Except Fault Bytes × Source
  | [] => (.ok [], [])
  | .data chunk :: rest => (.ok (chunk.bytes.take n), push (chunk.bytes.drop n) rest)
  | .endOfStream :: rest => (.ok [], rest)
  | .fault fault :: rest => (.error fault, rest)

/-- Takes up to `n` bytes of the data in front, stopping early at any other item. -/
def takeData (n : Nat) : Source → Bytes × Source
  | .data chunk :: rest =>
    if chunk.bytes.length ≤ n then
      let (bytes, left) := takeData (n - chunk.bytes.length) rest
      (chunk.bytes ++ bytes, left)
    else (chunk.bytes.take n, push (chunk.bytes.drop n) rest)
  | s => ([], s)

/-! ## Progress

Every call that does not meet the end of the script makes the source smaller. -/

/-- One for every byte of data and for every other item. -/
def weight : Source → Nat
  | [] => 0
  | .data chunk :: rest => chunk.bytes.length + weight rest
  | .endOfStream :: rest => 1 + weight rest
  | .fault _ :: rest => 1 + weight rest

@[simp] theorem weight_push (bs : Bytes) (s : Source) :
    weight (push bs s) = bs.length + weight s := by
  cases bs with
  | nil => simp [push]
  | cons b bs => rfl

theorem weight_lt_of_call {n : Nat} {s rest : Source} {answer : Except Fault Bytes}
    (asked : 0 < n) (called : call n s = (answer, rest)) (some_progress : answer ≠ .ok []) :
    weight rest < weight s := by
  cases s with
  | nil =>
    simp only [call, Prod.mk.injEq] at called
    exact absurd called.1.symm some_progress
  | cons item left =>
    cases item with
    | data chunk =>
      simp only [call, Prod.mk.injEq] at called
      obtain ⟨_, rfl⟩ := called
      simp only [weight, weight_push, List.length_drop, Chunk.bytes, List.length_cons]
      omega
    | endOfStream =>
      simp only [call, Prod.mk.injEq] at called
      exact absurd called.1.symm some_progress
    | fault fault =>
      simp only [call, Prod.mk.injEq] at called
      obtain ⟨_, rfl⟩ := called
      simp only [weight]
      omega

instance : Readable Source (.ok [] : Except Fault Bytes) where
  call := call
  weight := weight
  weight_lt_of_call := weight_lt_of_call

end Source

/-! ## Sources that suspend -/

/-- A source whose calls may answer that they are not ready. -/
abbrev PollSource := List (Poll SourceItem)

namespace PollSource

/-- All data still in a source, in order. -/
def contents (s : PollSource) : Bytes := Source.contents (Poll.settled s)

/-- One read call for at most `n` bytes.  A ready item answers just as it does in a
    source that never suspends. -/
def call (n : Nat) : PollSource → Poll (Except Fault Bytes) × PollSource
  | [] => (.ready (.ok []), [])
  | .pending :: rest => (.pending, rest)
  | .ready item :: rest =>
    let (answer, left) := Source.call n [item]
    (.ready answer, left.map .ready ++ rest)

/-- Takes up to `n` bytes of the data in front, stopping early at any other item,
    a suspension included. -/
def takeData (n : Nat) : PollSource → Bytes × PollSource
  | .ready (.data chunk) :: rest =>
    if chunk.bytes.length ≤ n then
      let (bytes, left) := takeData (n - chunk.bytes.length) rest
      (chunk.bytes ++ bytes, left)
    else (chunk.bytes.take n, (Source.push (chunk.bytes.drop n) []).map .ready ++ rest)
  | s => ([], s)

/-- One for every byte of data and for every other item. -/
def weight : PollSource → Nat
  | [] => 0
  | .pending :: rest => 1 + weight rest
  | .ready item :: rest => Source.weight [item] + weight rest

theorem weight_map_ready_append (front : Source) (rest : PollSource) :
    weight (front.map .ready ++ rest) = front.weight + weight rest := by
  induction front with
  | nil => simp [Source.weight]
  | cons item front ih =>
    cases item <;> simp [weight, Source.weight, ih] <;> omega

theorem weight_lt_of_call {n : Nat} {s rest : PollSource} {answer : Poll (Except Fault Bytes)}
    (asked : 0 < n) (called : call n s = (answer, rest))
    (some_progress : answer ≠ .ready (.ok [])) : weight rest < weight s := by
  cases s with
  | nil =>
    simp only [call, Prod.mk.injEq] at called
    exact absurd called.1.symm some_progress
  | cons item left =>
    cases item with
    | pending =>
      simp only [call, Prod.mk.injEq] at called
      obtain ⟨_, rfl⟩ := called
      simp only [weight]
      omega
    | ready item =>
      simp only [call, Prod.mk.injEq] at called
      obtain ⟨rfl, rfl⟩ := called
      have smaller : Source.weight (Source.call n [item]).2 < Source.weight [item] :=
        Source.weight_lt_of_call asked rfl fun answered =>
          some_progress (congrArg Poll.ready answered)
      simp only [weight, weight_map_ready_append]
      omega

instance : Readable PollSource (.ready (.ok []) : Poll (Except Fault Bytes)) where
  call := call
  weight := weight
  weight_lt_of_call := weight_lt_of_call

end PollSource

end Nbd
