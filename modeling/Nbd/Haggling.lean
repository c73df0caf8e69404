import Nbd.Codec
import Nbd.Magic
import Nbd.Vocabulary

/-! # Option haggling

Between the handshake and the transmission phase the client sends options and the
server answers each with one or more replies.  Both are headers only: the data
they announce is read and written by the caller.

A reply type is either a success (`OptionReplyCode`) or an error
(`OptionError`); the highest bit of its 32 tells which.
-/

namespace Nbd

/-! ## Codes -/

/-- The options a client can send. -/
inductive OptionCode where
  /-- Select an export by name and move straight to transmission. -/
  | exportName
  | abort
  | list
  /-- Query the details of an export without selecting it. -/
  | peekExport
  | startTls
  /-- Query information about an export. -/
  | info
  /-- Query information about an export and select it. -/
  | go
  | structuredReply
  deriving DecidableEq, Repr

instance : Code OptionCode UInt32 where
  all := [.exportName, .abort, .list, .peekExport, .startTls, .info, .go, .structuredReply]
  name
    | .exportName => "ExportName"
    | .abort => "Abort"
    | .list => "List"
    | .peekExport => "PeekExport"
    | .startTls => "StartTls"
    | .info => "Info"
    | .go => "Go"
    | .structuredReply => "StructuredReply"
  mem_all a := by cases a <;> decide
  code
    | .exportName => 1
    | .abort => 2
    | .list => 3
    | .peekExport => 4
    | .startTls => 5
    | .info => 6
    | .go => 7
    | .structuredReply => 8
  distinct := by decide

/-- The reply types that report success. -/
inductive OptionReplyCode where
  /-- The option was handled; no more replies follow. -/
  | ack
  | server
  /-- One block of information about an export. -/
  | info
  deriving DecidableEq, Repr

instance : Code OptionReplyCode UInt32 where
  all := [.ack, .server, .info]
  name
    | .ack => "Ack"
    | .server => "Server"
    | .info => "Info"
  mem_all a := by cases a <;> decide
  code
    | .ack => 1
    | .server => 2
    | .info => 3
  distinct := by decide

/-- The reply types that report an error. -/
inductive OptionError where
  /-- The server does not know the option. -/
  | unsupported
  /-- The server knows the option and forbids it. -/
  | policy
  /-- The option is malformed or makes no sense. -/
  | invalid
  /-- The option does not exist on the server's platform. -/
  | platform
  | tlsRequired
  | unknown
  | shutdown
  /-- The client has to acknowledge the block size constraints first. -/
  | blockSizeRequired
  deriving DecidableEq, Repr

instance : Code OptionError UInt32 where
  all := [.unsupported, .policy, .invalid, .platform, .tlsRequired, .unknown, .shutdown,
    .blockSizeRequired]
  name
    | .unsupported => "Unsupported"
    | .policy => "Policy"
    | .invalid => "Invalid"
    | .platform => "Platform"
    | .tlsRequired => "TLSRequired"
    | .unknown => "Unknown"
    | .shutdown => "Shutdown"
    | .blockSizeRequired => "BlockSizeRequired"
  mem_all a := by cases a <;> decide
  code
    | .unsupported => 0x80000001
    | .policy => 0x80000002
    | .invalid => 0x80000003
    | .platform => 0x80000004
    | .tlsRequired => 0x80000005
    | .unknown => 0x80000006
    | .shutdown => 0x80000007
    | .blockSizeRequired => 0x80000008
  distinct := by decide

def OptionError.message : OptionError → String
  | .unsupported => "Unsupported option (NBD_REP_ERR_UNSUP)"
  | .policy => "Policy error (NBD_REP_ERR_POLICY)"
  | .invalid => "Invalid option (NBD_REP_ERR_INVALID)"
  | .platform => "Platform error (NBD_REP_ERR_PLATFORM)"
  | .tlsRequired => "TLS required (NBD_REP_ERR_TLS_REQD)"
  | .unknown => "Unknown export (NBD_REP_ERR_UNKNOWN)"
  | .shutdown => "Server shutting down (NBD_REP_ERR_SHUTDOWN)"
  | .blockSizeRequired => "Block size required (NBD_REP_ERR_BLOCK_SIZE_REQD)"

/-- The bit that is set in every reply type that reports an error. -/
def replyErrorBit : UInt32 := 0x80000000

def isErrorReply (replyType : UInt32) : Bool :=
  !(replyType &&& replyErrorBit == 0)

/-! ## Option requests -/

structure OptionRequest where
  magic : UInt64
  option : UInt32
  length : UInt32
  deriving DecidableEq, Repr

namespace OptionRequest

/-- The header of an option followed by `length` bytes of data. -/
def of (option : OptionCode) (length : UInt32) : OptionRequest where
  magic := Magic.options
  option := Code.code option
  length

/-- The option, or the raw value if it is none that is known. -/
def code (r : OptionRequest) : Except UInt32 OptionCode :=
  match Code.ofCode? OptionCode r.option with
  | some option => .ok option
  | none => .error r.option

instance : Codec OptionRequest where
  name := "ClientOption"
  width := 16
  put r buffer := buffer |> Codec.put r.magic |> Codec.put r.option |> Codec.put r.length
  get := return {
    magic := ← Codec.get
    option := ← Codec.get
    length := ← Codec.get }

end OptionRequest

/-! ## Option replies -/

structure OptionReply where
  magic : UInt64
  option : UInt32
  replyType : UInt32
  length : UInt32
  deriving DecidableEq, Repr

namespace OptionReply

/-- The header of a reply to `option`, followed by `length` bytes of data. -/
def of (option replyType length : UInt32) : OptionReply where
  magic := Magic.optionReply
  option
  replyType
  length

/-- The error reply to `option`; no data follows it. -/
def ofError (option : UInt32) (error : OptionError) : OptionReply :=
  of option (Code.code error) 0

def isError (r : OptionReply) : Bool := isErrorReply r.replyType

instance : Codec OptionReply where
  name := "OptionReply"
  width := 20
  put r buffer :=
    buffer |> Codec.put r.magic |> Codec.put r.option |> Codec.put r.replyType
      |> Codec.put r.length
  get := return {
    magic := ← Codec.get
    option := ← Codec.get
    replyType := ← Codec.get
    length := ← Codec.get }

end OptionReply

end Nbd
