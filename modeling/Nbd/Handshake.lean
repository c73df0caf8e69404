import Nbd.Codec
import Nbd.FlagSet.Basic
import Nbd.Magic

/-! # The handshake

The server opens a connection with a `HandshakeHeader`, which offers global flags
in 16 bits.  The client answers with `ClientFlags`, which accepts some of them in
32 bits.  A client flag stands for the same bit as the server flag it accepts, so
an answer can be computed from an offer (`FlagSet.acceptAll`); bits that no flag
names are never accepted.
-/

namespace Nbd

/-! ## Flags -/

/-- What the server offers. -/
inductive HandshakeFlag where
  /-- The server speaks fixed newstyle negotiation. -/
  | fixedNewstyle
  /-- The server can leave out the zero padding after the export details. -/
  | noZeroes
  deriving DecidableEq, Repr

instance : Flag HandshakeFlag where
  all := [.fixedNewstyle, .noZeroes]
  name
    | .fixedNewstyle => "FIXED_NEWSTYLE"
    | .noZeroes => "NO_ZEROES"
  mem_all f := by cases f <;> decide
  width := 16
  position
    | .fixedNewstyle => 0
    | .noZeroes => 1
  position_lt f := by cases f <;> decide
  ascending := by decide

/-- What the client accepts. -/
inductive ClientFlag where
  /-- The client speaks fixed newstyle negotiation. -/
  | fixedNewstyle
  /-- The client does not want the zero padding after the export details. -/
  | noZeroes
  deriving DecidableEq, Repr

/-- The offer a client flag accepts. -/
def ClientFlag.offer : ClientFlag → HandshakeFlag
  | .fixedNewstyle => .fixedNewstyle
  | .noZeroes => .noZeroes

instance : Flag ClientFlag where
  all := [.fixedNewstyle, .noZeroes]
  name
    | .fixedNewstyle => "C_FIXED_NEWSTYLE"
    | .noZeroes => "C_NO_ZEROES"
  mem_all f := by cases f <;> decide
  width := 32
  position f := Flag.position f.offer
  position_lt f := by cases f <;> decide
  ascending := by decide

/-- A server offers everything unless told otherwise. -/
instance : Inhabited (FlagSet HandshakeFlag) where
  default := .ofList [.fixedNewstyle, .noZeroes]

/-- The client flags that accept every flag offered. -/
def FlagSet.acceptAll (offered : FlagSet HandshakeFlag) : FlagSet ClientFlag :=
  .truncate (offered.bits.setWidth 32)

/-! ## The server's header -/

/-- The header a server opens every connection with. -/
structure HandshakeHeader where
  magic : UInt64
  optionsMagic : UInt64
  globalFlags : UInt16
  deriving DecidableEq, Repr

namespace HandshakeHeader

def offering (flags : FlagSet HandshakeFlag) : HandshakeHeader where
  magic := Magic.handshake
  optionsMagic := Magic.options
  globalFlags := .ofBitVec flags.bits

instance : Inhabited HandshakeHeader where
  default := offering default

/-- The flags offered, without undefined bits. -/
def flags (h : HandshakeHeader) : FlagSet HandshakeFlag :=
  .truncate h.globalFlags.toBitVec

instance : Codec HandshakeHeader where
  name := "HandshakeHeader"
  width := 18
  put h buffer :=
    buffer |> Codec.put h.magic |> Codec.put h.optionsMagic |> Codec.put h.globalFlags
  get := return {
    magic := ← Codec.get
    optionsMagic := ← Codec.get
    globalFlags := ← Codec.get }

end HandshakeHeader

/-! ## The client's answer -/

/-- The flags a client answers the handshake header with. -/
structure ClientFlags where
  word : UInt32
  deriving DecidableEq, Repr

namespace ClientFlags

def accepting (flags : FlagSet ClientFlag) : ClientFlags where
  word := .ofBitVec flags.bits

/-- A client accepts nothing unless told otherwise. -/
instance : Inhabited ClientFlags where
  default := ⟨0⟩

/-- The flags accepted, without undefined bits. -/
def flags (c : ClientFlags) : FlagSet ClientFlag :=
  .truncate c.word.toBitVec

instance : Codec ClientFlags where
  name := "ClientFlags"
  width := 4
  put c buffer := buffer |> Codec.put c.word
  get := return { word := ← Codec.get }

end ClientFlags

end Nbd
