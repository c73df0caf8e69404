/-! # Magic numbers

Constants that identify the protocol and the parts of it.  Decoding never checks
them; comparing a received magic with these values is left to the caller.
-/

namespace Nbd.Magic

/-- Opens the handshake; the ASCII letters `NBDMAGIC`. -/
def handshake : UInt64 := 0x4e42444d41474943

/-- Announces newstyle negotiation and opens every option request; the ASCII letters
    `IHAVEOPT`. -/
def options : UInt64 := 0x49484156454F5054

/-- Stands in place of `options` in the oldstyle handshake. -/
def oldstyle : UInt64 := 0x00420281861253

def optionReply : UInt64 := 0x3e889045565a9

def request : UInt32 := 0x25609513

def reply : UInt32 := 0x67446698

/-- Opens every chunk of a structured reply. -/
def structuredReply : UInt32 := 0x668e33ef

/-- The TCP service number registered for the protocol. -/
def tcpService : UInt16 := 10809

end Nbd.Magic
