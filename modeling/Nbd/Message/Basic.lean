import Nbd.Export
import Nbd.Haggling
import Nbd.Handshake
import Nbd.Reply

/-! # Messages of any kind

`Message` is the closed sum of everything that has a fixed layout: the nine
headers of the protocol and, for fields that stand alone, the plain words.  A
`Kind` says which of them a message is, and so which codec lays it out.

There are two ways from a kind to its codec.  `Kind.Body` is the type of the value
inside a message, for callers that know the kind statically; `Message.withCodec`
and `Kind.dispatch` route a message or a kind at run time.  Both reach the same
codec.
-/

namespace Nbd

/-! ## Words -/

/-- The widths a field can have. -/
inductive WordSize where
  | w16
  | w32
  | w64
  deriving DecidableEq, Repr

/-- An unsigned number of one of these widths. -/
inductive Word where
  | w16 (value : UInt16)
  | w32 (value : UInt32)
  | w64 (value : UInt64)
  deriving DecidableEq, Repr

def Word.size : Word → WordSize
  | .w16 _ => .w16
  | .w32 _ => .w32
  | .w64 _ => .w64

/-- The number a word stands for. -/
def Word.toNat : Word → Nat
  | .w16 value => value.toNat
  | .w32 value => value.toNat
  | .w64 value => value.toNat

/-! ## Kinds -/

/-- The kinds of message. -/
inductive Kind where
  | handshakeHeader
  | clientFlags
  | optionRequest
  | exportDetails
  | optionReply
  | request
  | reply
  | exportInfo
  | blockSizeInfo
  | word (size : WordSize)
  deriving DecidableEq, Repr

instance : Vocabulary Kind where
  all := [.handshakeHeader, .clientFlags, .optionRequest, .exportDetails, .optionReply, .request,
    .reply, .exportInfo, .blockSizeInfo, .word .w16, .word .w32, .word .w64]
  name
    | .handshakeHeader => "HandshakeHeader"
    | .clientFlags => "ClientFlags"
    | .optionRequest => "ClientOption"
    | .exportDetails => "ExportDetails"
    | .optionReply => "OptionReply"
    | .request => "Request"
    | .reply => "Reply"
    | .exportInfo => "InfoExport"
    | .blockSizeInfo => "InfoBlockSize"
    | .word .w16 => "U16"
    | .word .w32 => "U32"
    | .word .w64 => "U64"
  mem_all k := by
    cases k with
    | word size => cases size <;> decide
    | _ => decide

/-- The type of the value inside a message of a given kind. -/
@[reducible] def Kind.Body : Kind → Type
  | .handshakeHeader => HandshakeHeader
  | .clientFlags => ClientFlags
  | .optionRequest => OptionRequest
  | .exportDetails => ExportDetails
  | .optionReply => OptionReply
  | .request => Request
  | .reply => Reply
  | .exportInfo => ExportInfo
  | .blockSizeInfo => BlockSizeInfo
  | .word .w16 => UInt16
  | .word .w32 => UInt32
  | .word .w64 => UInt64

instance Kind.codec : (k : Kind) → Codec k.Body
  | .handshakeHeader => inferInstanceAs (Codec HandshakeHeader)
  | .clientFlags => inferInstanceAs (Codec ClientFlags)
  | .optionRequest => inferInstanceAs (Codec OptionRequest)
  | .exportDetails => inferInstanceAs (Codec ExportDetails)
  | .optionReply => inferInstanceAs (Codec OptionReply)
  | .request => inferInstanceAs (Codec Request)
  | .reply => inferInstanceAs (Codec Reply)
  | .exportInfo => inferInstanceAs (Codec ExportInfo)
  | .blockSizeInfo => inferInstanceAs (Codec BlockSizeInfo)
  | .word .w16 => inferInstanceAs (Codec UInt16)
  | .word .w32 => inferInstanceAs (Codec UInt32)
  | .word .w64 => inferInstanceAs (Codec UInt64)

/-! ## Messages -/

/-- A value of any kind. -/
inductive Message where
  | handshakeHeader (header : HandshakeHeader)
  | clientFlags (flags : ClientFlags)
  | optionRequest (request : OptionRequest)
  | exportDetails (details : ExportDetails)
  | optionReply (reply : OptionReply)
  | request (request : Request)
  | reply (reply : Reply)
  | exportInfo (info : ExportInfo)
  | blockSizeInfo (info : BlockSizeInfo)
  | word (word : Word)
  deriving DecidableEq, Repr

namespace Message

def kind : Message → Kind
  | .handshakeHeader _ => .handshakeHeader
  | .clientFlags _ => .clientFlags
  | .optionRequest _ => .optionRequest
  | .exportDetails _ => .exportDetails
  | .optionReply _ => .optionReply
  | .request _ => .request
  | .reply _ => .reply
  | .exportInfo _ => .exportInfo
  | .blockSizeInfo _ => .blockSizeInfo
  | .word w => .word w.size

/-- The value inside a message. -/
def body : (m : Message) → m.kind.Body
  | .handshakeHeader h => h
  | .clientFlags c => c
  | .optionRequest r => r
  | .exportDetails d => d
  | .optionReply r => r
  | .request r => r
  | .reply r => r
  | .exportInfo i => i
  | .blockSizeInfo i => i
  | .word (.w16 value) => value
  | .word (.w32 value) => value
  | .word (.w64 value) => value

/-- The message of a given kind with that value inside. -/
def ofBody : (k : Kind) → k.Body → Message
  | .handshakeHeader => .handshakeHeader
  | .clientFlags => .clientFlags
  | .optionRequest => .optionRequest
  | .exportDetails => .exportDetails
  | .optionReply => .optionReply
  | .request => .request
  | .reply => .reply
  | .exportInfo => .exportInfo
  | .blockSizeInfo => .blockSizeInfo
  | .word .w16 => fun value => .word (.w16 value)
  | .word .w32 => fun value => .word (.w32 value)
  | .word .w64 => fun value => .word (.w64 value)

@[simp] theorem ofBody_body (m : Message) : ofBody m.kind m.body = m := by
  cases m with
  | word w => cases w <;> rfl
  | _ => rfl

@[simp] theorem kind_ofBody (k : Kind) (v : k.Body) : (ofBody k v).kind = k := by
  cases k with
  | word size => cases size <;> rfl
  | _ => rfl

/-! ## Routing -/

/-- Applies an operation that works for every codec to the value inside a message. -/
def withCodec {β : Type} (m : Message) (operation : {α : Type} → [Codec α] → α → β) : β :=
  match m with
  | .handshakeHeader h => operation h
  | .clientFlags c => operation c
  | .optionRequest r => operation r
  | .exportDetails d => operation d
  | .optionReply r => operation r
  | .request r => operation r
  | .reply r => operation r
  | .exportInfo i => operation i
  | .blockSizeInfo i => operation i
  | .word (.w16 value) => operation value
  | .word (.w32 value) => operation value
  | .word (.w64 value) => operation value

end Message

/-- Runs an operation that produces a value of every codec for the codec of a kind,
    and makes a message of what it produces. -/
def Kind.dispatch {F : Type → Type} [Functor F] (k : Kind)
    (operation : (α : Type) → [Codec α] → F α) : F Message :=
  match k with
  | .handshakeHeader => Message.handshakeHeader <$> operation HandshakeHeader
  | .clientFlags => Message.clientFlags <$> operation ClientFlags
  | .optionRequest => Message.optionRequest <$> operation OptionRequest
  | .exportDetails => Message.exportDetails <$> operation ExportDetails
  | .optionReply => Message.optionReply <$> operation OptionReply
  | .request => Message.request <$> operation Request
  | .reply => Message.reply <$> operation Reply
  | .exportInfo => Message.exportInfo <$> operation ExportInfo
  | .blockSizeInfo => Message.blockSizeInfo <$> operation BlockSizeInfo
  | .word .w16 => (Message.word ∘ Word.w16) <$> operation UInt16
  | .word .w32 => (Message.word ∘ Word.w32) <$> operation UInt32
  | .word .w64 => (Message.word ∘ Word.w64) <$> operation UInt64

/-- The width of every message of a kind. -/
def Kind.size : Kind → Nat
  | .handshakeHeader => Codec.width HandshakeHeader
  | .clientFlags => Codec.width ClientFlags
  | .optionRequest => Codec.width OptionRequest
  | .exportDetails => Codec.width ExportDetails
  | .optionReply => Codec.width OptionReply
  | .request => Codec.width Request
  | .reply => Codec.width Reply
  | .exportInfo => Codec.width ExportInfo
  | .blockSizeInfo => Codec.width BlockSizeInfo
  | .word .w16 => Codec.width UInt16
  | .word .w32 => Codec.width UInt32
  | .word .w64 => Codec.width UInt64

namespace Message

/-! ## Encoding and decoding -/

/-- The width of a message. -/
def encodedLength (m : Message) : Nat := m.kind.size

/-- Appends a message to a buffer. -/
def put (m : Message) (buffer : Bytes) : Bytes := m.withCodec fun v => Codec.put v buffer

/-- The bytes of a message. -/
def encode (m : Message) : Bytes := m.withCodec Codec.encode

/-- The bytes of a value whose type is known statically. -/
def encodeValue {α : Type} [Codec α] (v : α) : Bytes := Codec.encode v

/-- Takes a message of a kind from the front of a buffer. -/
def get (k : Kind) : Cursor Message := k.dispatch fun _ => Codec.get

/-- The message of a kind at the start of a byte string. -/
def decode (k : Kind) (input : Bytes) : Answer Message :=
  k.dispatch fun α => Codec.decode α input

/-- The value of a statically known type at the start of a byte string. -/
def decodeValue (α : Type) [Codec α] (input : Bytes) : Answer α := Codec.decode α input

end Message

end Nbd
