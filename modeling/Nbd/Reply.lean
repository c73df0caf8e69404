import Nbd.Request

/-! # Replies

Header of the simple reply to a request, and the vocabulary of structured replies.
A reply carries the handle of its request and an error field in which zero means
success.
-/

namespace Nbd

/-! ## Error codes -/

inductive ErrorCode where
  | notPermitted
  | inputOutput
  | outOfMemory
  | invalidArgument
  | noSpaceLeft
  | valueTooLarge
  | notSupported
  | shuttingDown
  deriving DecidableEq, Repr

instance : Code ErrorCode UInt32 where
  all := [.notPermitted, .inputOutput, .outOfMemory, .invalidArgument, .noSpaceLeft,
    .valueTooLarge, .notSupported, .shuttingDown]
  name
    | .notPermitted => "CommandNotPermitted"
    | .inputOutput => "IO"
    | .outOfMemory => "OutOfMemory"
    | .invalidArgument => "InvalidArgument"
    | .noSpaceLeft => "NoSpaceLeft"
    | .valueTooLarge => "ValueTooLarge"
    | .notSupported => "CommandNotSupported"
    | .shuttingDown => "ServerShuttingDown"
  mem_all a := by cases a <;> decide
  code
    | .notPermitted => 1
    | .inputOutput => 5
    | .outOfMemory => 12
    | .invalidArgument => 22
    | .noSpaceLeft => 28
    | .valueTooLarge => 75
    | .notSupported => 95
    | .shuttingDown => 108
  distinct := by decide

def ErrorCode.message : ErrorCode → String
  | .notPermitted => "Command not permitted (NBD_EPERM)"
  | .inputOutput => "Input/output error (NBD_EIO)"
  | .outOfMemory => "Cannot allocate memory (NBD_ENOMEM)"
  | .invalidArgument => "Invalid argument (NBD_EINVAL)"
  | .noSpaceLeft => "No space left on device (NBD_ENOSPC)"
  | .valueTooLarge => "Value too large (NBD_EOVERFLOW)"
  | .notSupported => "Command not supported (NBD_ENOTSUP)"
  | .shuttingDown => "Server is in the process of being shut down (NBD_ESHUTDOWN)"

/-! ## Simple replies -/

structure Reply where
  magic : UInt32
  error : UInt32
  handle : UInt64
  deriving DecidableEq, Repr

namespace Reply

/-- The reply with a raw error field. -/
def of (error : UInt32) (handle : UInt64) : Reply where
  magic := Magic.reply
  error
  handle

def success (handle : UInt64) : Reply := of 0 handle

/-- The reply to a request, successful unless there is an error. -/
def answering (r : Request) (error : Option ErrorCode) : Reply :=
  of ((error.map Code.code).getD 0) r.handle

/-- The error reported: none for zero, a code if the field is one, and otherwise the
    raw field. -/
def errorCode (r : Reply) : Except UInt32 (Option ErrorCode) :=
  if r.error = 0 then .ok none
  else match Code.ofCode? ErrorCode r.error with
    | some code => .ok (some code)
    | none => .error r.error

instance : Codec Reply where
  name := "Reply"
  width := 16
  put r buffer := buffer |> Codec.put r.magic |> Codec.put r.error |> Codec.put r.handle
  get := return {
    magic := ← Codec.get
    error := ← Codec.get
    handle := ← Codec.get }

end Reply

/-! ## Structured replies

Only their vocabulary is fixed here; the layout of a chunk depends on what it
carries. -/

inductive ChunkFlag where
  /-- No more chunks follow for this handle. -/
  | done
  deriving DecidableEq, Repr

instance : Flag ChunkFlag where
  all := [.done]
  name | .done => "DONE"
  mem_all | .done => by decide
  width := 16
  position | .done => 0
  position_lt | .done => by decide
  ascending := by decide

inductive ChunkCode where
  /-- Nothing; valid only in the last chunk. -/
  | none
  | error
  /-- An error at a given offset. -/
  | errorOffset
  | offsetData
  /-- A range that reads as zeroes. -/
  | offsetHole
  deriving DecidableEq, Repr

instance : Code ChunkCode UInt16 where
  all := [.none, .error, .errorOffset, .offsetData, .offsetHole]
  name
    | .none => "None"
    | .error => "Error"
    | .errorOffset => "ErrorOffset"
    | .offsetData => "OffsetData"
    | .offsetHole => "OffsetHole"
  mem_all a := by cases a <;> decide
  code
    | .none => 0
    | .error => 1
    | .errorOffset => 2
    | .offsetData => 3
    | .offsetHole => 4
  distinct := by decide

end Nbd
