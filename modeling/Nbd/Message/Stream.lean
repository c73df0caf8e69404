import Nbd.Message.Basic
import Nbd.Stream.Blocking
import Nbd.Stream.Suspending

/-! # Messages over streams

Reading and writing a message whose kind is known only at run time.  Each call is
routed to the codec of the kind, so it logs what the codec's own call would log.
-/

namespace Nbd

namespace Blocking

/-- Reads exactly one message of a kind. -/
def readMessage (k : Kind) (s : Source) : Received Source Message :=
  k.dispatch fun α => read α s

/-- Writes one message. -/
def writeMessage (m : Message) (s : Sink) : Delivered Sink :=
  m.withCodec fun v => write v s

end Blocking

namespace Suspending

/-- Reads exactly one message of a kind. -/
def readMessage (k : Kind) (s : PollSource) : Received PollSource Message :=
  k.dispatch fun α => read α s

/-- Writes one message. -/
def writeMessage (m : Message) (s : PollSink) : Delivered PollSink :=
  m.withCodec fun v => write v s

end Suspending

end Nbd
