import Nbd.Event
import Nbd.FlagSet.Basic

/-! # Commands

The commands of the transmission phase and what each requires of a request: is
its range checked, does data follow the request or the reply, is it refused on a
read-only export, does it end the session.  These requirements are the command's
traits.  `Command.traitTable` lists them row by row and `lookup` finds the row of
a raw command code.
-/

namespace Nbd

inductive Command where
  | read
  | write
  | disconnect
  | flush
  /-- Give up the contents of a range. -/
  | trim
  | writeZeroes
  /-- End the connection after a final reply. -/
  | close
  deriving DecidableEq, Repr

instance : Code Command UInt16 where
  all := [.read, .write, .disconnect, .flush, .trim, .writeZeroes, .close]
  name
    | .read => "Read"
    | .write => "Write"
    | .disconnect => "Disconnect"
    | .flush => "Flush"
    | .trim => "Trim"
    | .writeZeroes => "WriteZeroes"
    | .close => "Close"
  mem_all a := by cases a <;> decide
  code
    | .read => 0
    | .write => 1
    | .disconnect => 2
    | .flush => 3
    | .trim => 4
    | .writeZeroes => 5
    | .close => 7
  distinct := by decide

/-! ## Traits -/

/-- What a command can require. -/
inductive CommandTrait where
  /-- Offset and length lie within the export. -/
  | checkLengthOffset
  /-- As many bytes of data as the length says follow the request. -/
  | requestPayload
  /-- No data is sent, but zeroes of the given length stand in for it. -/
  | requestFakePayload
  /-- As many bytes of data as the length says follow a successful reply. -/
  | replyPayload
  | checkNotReadOnly
  | setDisconnectReceived
  deriving DecidableEq, Repr

instance : Flag CommandTrait where
  all := [.checkLengthOffset, .requestPayload, .requestFakePayload, .replyPayload,
    .checkNotReadOnly, .setDisconnectReceived]
  name
    | .checkLengthOffset => "CHECK_LENGTH_OFFSET"
    | .requestPayload => "REQ_PAYLOAD"
    | .requestFakePayload => "REQ_FAKE_PAYLOAD"
    | .replyPayload => "REP_PAYLOAD"
    | .checkNotReadOnly => "CHECK_NOT_READ_ONLY"
    | .setDisconnectReceived => "SET_DISCONNECT_RECEIVED"
  mem_all f := by cases f <;> decide
  width := 8
  position
    | .checkLengthOffset => 0
    | .requestPayload => 1
    | .requestFakePayload => 2
    | .replyPayload => 3
    | .checkNotReadOnly => 4
    | .setDisconnectReceived => 5
  position_lt f := by cases f <;> decide
  ascending := by decide

namespace Command

def traits : Command → FlagSet CommandTrait
  | .read => .ofList [.checkLengthOffset, .replyPayload]
  | .write => .ofList [.checkLengthOffset, .checkNotReadOnly, .requestPayload]
  | .disconnect => .ofList [.setDisconnectReceived]
  | .flush => .ofList [.checkNotReadOnly]
  | .trim => .ofList [.checkLengthOffset, .checkNotReadOnly]
  | .writeZeroes => .ofList [.checkLengthOffset, .checkNotReadOnly, .requestFakePayload]
  | .close => .ofList [.setDisconnectReceived]

/-- One row for each command, in the order of their codes. -/
def traitTable : List (Command × FlagSet CommandTrait) := [
  (read, read.traits),
  (write, write.traits),
  (disconnect, disconnect.traits),
  (flush, flush.traits),
  (trim, trim.traits),
  (writeZeroes, writeZeroes.traits),
  (close, close.traits)]

/-- The traits of the command with a raw code.  A code without a row is logged. -/
def lookup (code : UInt16) : Answer (FlagSet CommandTrait) :=
  match Code.ofCode? Command code with
  | some command => .quiet (.ok command.traits)
  | none => ⟨.error (.unknownCommand code), [.unknownCommand code]⟩

end Command

end Nbd
