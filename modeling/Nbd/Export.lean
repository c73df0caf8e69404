import Nbd.Codec
import Nbd.FlagSet.Basic

/-! # Export descriptions

How a server describes an export: its size, what it supports (the transmission
flags) and the block sizes it works with.  `ExportDetails` ends the oldest form of
negotiation; `ExportInfo` and `BlockSizeInfo` are the fixed-width blocks of
information that newer options answer with, each led by an `InfoCode`.
-/

namespace Nbd

/-! ## Transmission flags -/

/-- What an export supports. -/
inductive TransmissionFlag where
  /-- Set in every valid field of transmission flags. -/
  | hasFlags
  /-- The export refuses commands that write. -/
  | readOnly
  | sendFlush
  | sendFua
  /-- The export behaves like a rotating medium. -/
  | rotational
  | sendTrim
  | sendWriteZeroes
  | sendDf
  | sendClose
  deriving DecidableEq, Repr

instance : Flag TransmissionFlag where
  all := [.hasFlags, .readOnly, .sendFlush, .sendFua, .rotational, .sendTrim, .sendWriteZeroes,
    .sendDf, .sendClose]
  name
    | .hasFlags => "HAS_FLAGS"
    | .readOnly => "READ_ONLY"
    | .sendFlush => "SEND_FLUSH"
    | .sendFua => "SEND_FUA"
    | .rotational => "ROTATIONAL"
    | .sendTrim => "SEND_TRIM"
    | .sendWriteZeroes => "SEND_WRITE_ZEROES"
    | .sendDf => "SEND_DF"
    | .sendClose => "SEND_CLOSE"
  mem_all f := by cases f <;> decide
  width := 16
  position
    | .hasFlags => 0
    | .readOnly => 1
    | .sendFlush => 2
    | .sendFua => 3
    | .rotational => 4
    | .sendTrim => 5
    | .sendWriteZeroes => 6
    | .sendDf => 7
    | .sendClose => 8
  position_lt f := by cases f <;> decide
  ascending := by decide

instance : Inhabited (FlagSet TransmissionFlag) where
  default := .singleton .hasFlags

/-! ## Export details -/

/-- Size and transmission flags of an export selected by name. -/
structure ExportDetails where
  size : UInt64
  flags : UInt16
  deriving DecidableEq, Repr

namespace ExportDetails

/-- Bytes of zero that follow the details unless both sides agreed to leave them out. -/
def zeroPadding : Nat := 124

def of (size : UInt64) (flags : FlagSet TransmissionFlag) : ExportDetails where
  size
  flags := .ofBitVec flags.bits

instance : Inhabited ExportDetails where
  default := ⟨0, 0⟩

/-- The transmission flags, without undefined bits. -/
def transmissionFlags (d : ExportDetails) : FlagSet TransmissionFlag :=
  .truncate d.flags.toBitVec

instance : Codec ExportDetails where
  name := "ExportDetails"
  width := 10
  put d buffer := buffer |> Codec.put d.size |> Codec.put d.flags
  get := return {
    size := ← Codec.get
    flags := ← Codec.get }

end ExportDetails

/-! ## Information blocks -/

/-- The kinds of information about an export. -/
inductive InfoCode where
  | details
  | name
  /-- A description for people to read. -/
  | description
  | blockSize
  deriving DecidableEq, Repr

instance : Code InfoCode UInt16 where
  all := [.details, .name, .description, .blockSize]
  name
    | .details => "Export"
    | .name => "Name"
    | .description => "Description"
    | .blockSize => "BlockSize"
  mem_all a := by cases a <;> decide
  code
    | .details => 0
    | .name => 1
    | .description => 2
    | .blockSize => 3
  distinct := by decide

/-- Information block with the size and the transmission flags of an export. -/
structure ExportInfo where
  infoType : UInt16
  size : UInt64
  flags : UInt16
  deriving DecidableEq, Repr

namespace ExportInfo

def of (size : UInt64) (flags : FlagSet TransmissionFlag) : ExportInfo where
  infoType := Code.code InfoCode.details
  size
  flags := .ofBitVec flags.bits

/-- The transmission flags, without undefined bits. -/
def transmissionFlags (i : ExportInfo) : FlagSet TransmissionFlag :=
  .truncate i.flags.toBitVec

instance : Codec ExportInfo where
  name := "InfoExport"
  width := 12
  put i buffer := buffer |> Codec.put i.infoType |> Codec.put i.size |> Codec.put i.flags
  get := return {
    infoType := ← Codec.get
    size := ← Codec.get
    flags := ← Codec.get }

end ExportInfo

/-- Information block with the block size constraints of an export. -/
structure BlockSizeInfo where
  infoType : UInt16
  min : UInt32
  preferred : UInt32
  max : UInt32
  deriving DecidableEq, Repr

namespace BlockSizeInfo

/-- The block with these sizes, whatever their order. -/
def ofSizes (min preferred max : UInt32) : BlockSizeInfo where
  infoType := Code.code InfoCode.blockSize
  min
  preferred
  max

/-- The preferred size lies between the other two. -/
def isWellOrdered (i : BlockSizeInfo) : Bool :=
  i.min ≤ i.preferred && i.preferred ≤ i.max

/-- The block with these sizes, provided that they are well ordered. -/
def ofSizes? (min preferred max : UInt32) : Option BlockSizeInfo :=
  let info := ofSizes min preferred max
  if info.isWellOrdered then some info else none

instance : Codec BlockSizeInfo where
  name := "InfoBlockSize"
  width := 14
  put i buffer :=
    buffer |> Codec.put i.infoType |> Codec.put i.min |> Codec.put i.preferred |> Codec.put i.max
  get := return {
    infoType := ← Codec.get
    min := ← Codec.get
    preferred := ← Codec.get
    max := ← Codec.get }

end BlockSizeInfo

end Nbd
