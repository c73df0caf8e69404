import Nbd.Codec
import Nbd.Command
import Nbd.Magic

/-! # Requests

Header of a command in the transmission phase.  The handle is the client's choice
and comes back in the reply.  A request keeps its raw fields; the accessors read
them as a command, as flags and as a range of bytes.
-/

namespace Nbd

/-- Modifiers of a command. -/
inductive CommandFlag where
  /-- Data is on stable storage before the reply is sent. -/
  | fua
  /-- Zeroes may be written by punching a hole. -/
  | mayTrim
  /-- A structured reply is not split into chunks. -/
  | df
  deriving DecidableEq, Repr

instance : Flag CommandFlag where
  all := [.fua, .mayTrim, .df]
  name
    | .fua => "FUA"
    | .mayTrim => "MAY_TRIM"
    | .df => "DF"
  mem_all f := by cases f <;> decide
  width := 16
  position
    | .fua => 0
    | .mayTrim => 1
    | .df => 2
  position_lt f := by cases f <;> decide
  ascending := by decide

/-- Header of a request. -/
structure Request where
  magic : UInt32
  flags : UInt16
  commandType : UInt16
  handle : UInt64
  offset : UInt64
  length : UInt32
  deriving DecidableEq, Repr

namespace Request

/-- The request for a command on `length` bytes from `offset`. -/
def of (command : Command) (flags : FlagSet CommandFlag) (handle offset : UInt64)
    (length : UInt32) : Request where
  magic := Magic.request
  flags := .ofBitVec flags.bits
  commandType := Code.code command
  handle
  offset
  length

instance : Codec Request where
  name := "Request"
  width := 28
  put r buffer :=
    buffer |> Codec.put r.magic |> Codec.put r.flags |> Codec.put r.commandType
      |> Codec.put r.handle |> Codec.put r.offset |> Codec.put r.length
  get := return {
    magic := ← Codec.get
    flags := ← Codec.get
    commandType := ← Codec.get
    handle := ← Codec.get
    offset := ← Codec.get
    length := ← Codec.get }

/-! ## The command -/

/-- The command requested.  Unlike `traits`, an unknown code is not logged. -/
def command (r : Request) : Except Failure Command :=
  match Code.ofCode? Command r.commandType with
  | some command => .ok command
  | none => .error (.unknownCommand r.commandType)

/-- The flags of the request, without undefined bits. -/
def commandFlags (r : Request) : FlagSet CommandFlag :=
  .truncate r.flags.toBitVec

/-- The traits of the command requested. -/
def traits (r : Request) : Answer (FlagSet CommandTrait) :=
  Command.lookup r.commandType

/-- How many bytes of data follow the header. -/
def payloadLength (r : Request) : Answer Nat :=
  r.traits.map fun traits => if traits.has .requestPayload then r.length.toNat else 0

/-! ## The range -/

/-- One past the last byte of the range, or none if the sum does not fit into 64
    bits: a sum that wraps around is smaller than what it started from. -/
def endOffset? (r : Request) : Option UInt64 :=
  let stop := r.offset + r.length.toUInt64
  if stop < r.offset then none else some stop

/-- Whether the range lies within an export of `size` bytes. -/
def fitsWithin (r : Request) (size : UInt64) : Bool :=
  match r.endOffset? with
  | some stop => stop ≤ size
  | none => false

end Request

end Nbd
