import Nbd.Message.Stream

/-! # Sessions

A session reads from one source and writes to one sink, step by step.  It keeps
nothing between steps but the two streams and the last request it has read, which
is what a payload is taken for and what a reply answers.

An `Endpoint` says how a session moves messages.  There is one for each mode
(blocking or suspending) and each `Route` to a codec, and the steps are the same
for all of them.
-/

namespace Nbd

/-! ## Endpoints -/

/-- The ways to reach the codec of a message. -/
inductive Route where
  /-- Routed by kind at run time. -/
  | dispatched
  /-- Called on the type of the value itself. -/
  | direct
  deriving DecidableEq, Repr

/-- How messages and data are moved over a source `σ` and a sink `τ`. -/
structure Endpoint (σ τ : Type) where
  read : Kind → σ → Received σ Message
  write : Message → τ → Delivered τ
  /-- Takes up to a number of bytes of the data in front. -/
  takeData : Nat → σ → Bytes × σ
  contents : σ → Bytes

def Blocking.endpoint : Route → Endpoint Source Sink
  | .dispatched => {
      read := readMessage
      write := writeMessage
      takeData := Source.takeData
      contents := Source.contents }
  | .direct => {
      read := fun k s => Message.ofBody k <$> read k.Body s
      write := fun m s => write m.body s
      takeData := Source.takeData
      contents := Source.contents }

def Suspending.endpoint : Route → Endpoint PollSource PollSink
  | .dispatched => {
      read := readMessage
      write := writeMessage
      takeData := PollSource.takeData
      contents := PollSource.contents }
  | .direct => {
      read := fun k s => Message.ofBody k <$> read k.Body s
      write := fun m s => write m.body s
      takeData := PollSource.takeData
      contents := PollSource.contents }

/-! ## Steps -/

inductive Step where
  | read (kind : Kind)
  | write (message : Message)
  /-- Take the data that follows the last request. -/
  | payload
  /-- Answer the last request. -/
  | reply (error : Option ErrorCode)
  deriving DecidableEq, Repr

inductive Step.Outcome where
  | received (message : Message)
  | sent
  /-- The length the request announced, and the data that was there. -/
  | payload (length : Nat) (data : Bytes)
  | failed (failure : Failure)
  /-- The step needs a request and none has been read. -/
  | noRequest
  deriving DecidableEq, Repr

/-- The outcome of a step together with its traces. -/
structure Step.Report where
  outcome : Step.Outcome
  events : List Event
  /-- The bytes the sink took during the step. -/
  wrote : Bytes
  /-- How many bytes of data are still in the source. -/
  left : Nat
  deriving DecidableEq, Repr

structure Session (σ τ : Type) where
  source : σ
  sink : τ
  lastRequest? : Option Request := none

namespace Session

variable {σ τ : Type}

/-- Reads a message; a request is remembered. -/
def read (e : Endpoint σ τ) (s : Session σ τ) (k : Kind) : Session σ τ × Step.Report :=
  let r := e.read k s.source
  let left := (e.contents r.rest).length
  match r.result with
  | .ok message =>
    let lastRequest? := match message with
      | .request request => some request
      | _ => s.lastRequest?
    ({ s with source := r.rest, lastRequest? }, ⟨.received message, r.events, [], left⟩)
  | .error failure => ({ s with source := r.rest }, ⟨.failed failure, r.events, [], left⟩)

def write (e : Endpoint σ τ) (s : Session σ τ) (m : Message) : Session σ τ × Step.Report :=
  let d := e.write m s.sink
  let outcome := match d.result with
    | .ok () => .sent
    | .error failure => .failed failure
  ({ s with sink := d.rest }, ⟨outcome, d.events, d.taken, (e.contents s.source).length⟩)

/-- Takes as much of the data of a request as lies in front. -/
def payload (e : Endpoint σ τ) (s : Session σ τ) (r : Request) : Session σ τ × Step.Report :=
  let answer := r.payloadLength
  match answer.result with
  | .ok length =>
    let (data, rest) := e.takeData length s.source
    ({ s with source := rest },
      ⟨.payload length data, answer.events, [], (e.contents rest).length⟩)
  | .error failure => (s, ⟨.failed failure, answer.events, [], (e.contents s.source).length⟩)

/-- Acts on the last request, if there is one. -/
def withRequest (e : Endpoint σ τ) (s : Session σ τ)
    (act : Request → Session σ τ × Step.Report) : Session σ τ × Step.Report :=
  match s.lastRequest? with
  | some request => act request
  | none => (s, ⟨.noRequest, [], [], (e.contents s.source).length⟩)

def step (e : Endpoint σ τ) (s : Session σ τ) : Step → Session σ τ × Step.Report
  | .read kind => s.read e kind
  | .write message => s.write e message
  | .payload => s.withRequest e fun request => s.payload e request
  | .reply error => s.withRequest e fun request =>
    s.write e (.reply (Reply.answering request error))

/-- Runs steps in order: the session at the end, and what came of each step. -/
def run (e : Endpoint σ τ) (s : Session σ τ) : List Step → Session σ τ × List Step.Report
  | [] => (s, [])
  | next :: steps =>
    let (after, report) := s.step e next
    let (final, reports) := after.run e steps
    (final, report :: reports)

end Session

end Nbd
