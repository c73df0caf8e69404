import Nbd.BigEndian
import Nbd.Event

/-! # Fixed-width codecs

A codec lays a value out in a fixed number of bytes.  It says only in which order
the fields go into a buffer (`put`) and come out of one (`get`); everything else
(encoding, decoding, and later the streams) is derived here once for all codecs.

Decoding never looks at what a field means.  It fails on input shorter than the
codec's width and on nothing else, and it ignores what follows the last field.
-/

namespace Nbd

/-- Takes a value from the front of a byte string and leaves the rest.  The result
    is `none` if the byte string is too short. -/
abbrev Cursor := StateT Bytes Option

def Cursor.number (width : Nat) : Cursor Nat := fun input =>
  if input.length < width then none
  else some (ofBigEndian (input.take width), input.drop width)

/-- A fixed-width layout of `α` in bytes. -/
class Codec (α : Type) where
  /-- The name the codec goes by in the log. -/
  name : String
  width : Nat
  /-- Appends the fields of a value to a buffer, in wire order. -/
  put : α → Bytes → Bytes
  /-- Takes the fields of a value from the front of a buffer, in wire order. -/
  get : Cursor α

namespace Codec

/-! ## Plain words -/

instance : Codec UInt16 where
  name := "u16"
  width := 2
  put w buffer := buffer ++ bigEndian 2 w.toNat
  get := UInt16.ofNat <$> Cursor.number 2

instance : Codec UInt32 where
  name := "u32"
  width := 4
  put w buffer := buffer ++ bigEndian 4 w.toNat
  get := UInt32.ofNat <$> Cursor.number 4

instance : Codec UInt64 where
  name := "u64"
  width := 8
  put w buffer := buffer ++ bigEndian 8 w.toNat
  get := UInt64.ofNat <$> Cursor.number 8

/-! ## Whole values -/

variable {α : Type} [Codec α]

def encode (v : α) : Bytes := put v []

/-- The answer to input of only `actual` bytes. -/
def truncated (α : Type) [Codec α] {β : Type} (actual : Nat) : Answer β where
  result := .error (.truncated (width α) actual)
  events := [.truncated (name α) (width α) actual]

/-- The value at the start of a byte string; bytes past the codec's width are ignored. -/
def decode (α : Type) [Codec α] (input : Bytes) : Answer α :=
  match get.run input with
  | some (v, _) => .quiet (.ok v)
  | none => truncated α input.length

end Codec

end Nbd
