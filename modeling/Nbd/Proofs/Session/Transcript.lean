import Nbd.Proofs.Stream.Mode
import Nbd.Proofs.Transmission

/-! # The log is a transcript

The log of a program that uses this library says neither less nor more than what the calls
returned.  Whatever happened inside a call (retries, suspensions, bytes that came one by one)
leaves no trace; what does is fixed by the call and its result (`Call.lines`), and the log is
these lines in the order of the calls.
-/

namespace Nbd

/-! ## Calls -/

/-- A call of the library.  Those that move or convert messages can take either route. -/
inductive Call where
  | read (route : Route) (kind : Kind)
  | write (route : Route) (message : Message)
  | encode (route : Route) (message : Message)
  | decode (route : Route) (kind : Kind) (input : Bytes)
  | lookup (code : UInt16)
  | command (request : Request)
  | traits (request : Request)
  | payloadLength (request : Request)

inductive Call.Result where
  | message (m : Message)
  | written
  | encoded (bytes : Bytes)
  | command (command : Command)
  | traits (traits : FlagSet CommandTrait)
  | length (n : Nat)
  | failed (failure : Failure)

/-- The result made of what a call gave back on success, or its failure. -/
def Call.Result.of {α : Type} (success : α → Call.Result) : Except Failure α → Call.Result
  | .ok value => success value
  | .error failure => .failed failure

namespace Route

def encode : Route → Message → Bytes
  | .dispatched, m => m.encode
  | .direct, m => Codec.encode m.body

def decode : Route → Kind → Bytes → Answer Message
  | .dispatched, k, input => Message.decode k input
  | .direct, k, input => Message.ofBody k <$> Codec.decode k.Body input

end Route

structure Streams (mode : Mode) where
  source : mode.Source
  sink : mode.Sink

namespace Call

structure Done (mode : Mode) where
  result : Result
  events : List Event
  streams : Streams mode

variable {mode : Mode}

/-- A call that only computes leaves the streams alone. -/
def Done.computed {α : Type} (success : α → Result) (answer : Answer α) (s : Streams mode) :
    Done mode :=
  ⟨.of success answer.result, answer.events, s⟩

def perform (s : Streams mode) : Call → Done mode
  | .read route k =>
    let r := (mode.endpoint route).read k s.source
    ⟨.of .message r.result, r.events, { s with source := r.rest }⟩
  | .write route m =>
    let d := (mode.endpoint route).write m s.sink
    ⟨.of (fun _ => .written) d.result, d.events, { s with sink := d.rest }⟩
  | .encode route m => ⟨.encoded (route.encode m), [], s⟩
  | .decode route k input => .computed .message (route.decode k input) s
  | .lookup code => .computed .traits (Command.lookup code) s
  | .command r => .computed .command (.quiet r.command) s
  | .traits r => .computed .traits r.traits s
  | .payloadLength r => .computed .length r.payloadLength s

/-- What a program did and what was logged meanwhile. -/
structure Transcript where
  /-- The calls in order, each with what it returned. -/
  history : List (Call × Result)
  log : List Event

def performAll (s : Streams mode) : List Call → Transcript
  | [] => ⟨[], []⟩
  | call :: calls =>
    let done := call.perform s
    let later := performAll done.streams calls
    ⟨(call, done.result) :: later.history, done.events ++ later.log⟩

end Call

/-! ## Lines -/

/-- An event as it stands in the log. -/
structure Event.Line where
  level : Event.Level
  message : String
  fields : List (String × Event.Value)
  deriving DecidableEq

def Event.line (e : Event) : Event.Line := ⟨e.level, e.message, e.fields⟩

namespace Event.Line

def wrote (k : Kind) : Event.Line :=
  ⟨.trace, "wrote", [("kind", .text k.codecName), ("size", .number k.size)]⟩

def read (k : Kind) : Event.Line :=
  ⟨.trace, "read", [("kind", .text k.codecName), ("size", .number k.size)]⟩

def truncated (k : Kind) (expected actual : Nat) : Event.Line :=
  ⟨.debug, "truncated input",
    [("kind", .text k.codecName), ("expected", .number expected), ("actual", .number actual)]⟩

def unknownCommand (code : UInt16) : Event.Line :=
  ⟨.debug, "command code not in trait table", [("code", .number code.toNat)]⟩

end Event.Line

/-- The lines that stand in the log for a call with a result. -/
def Call.lines : Call → Call.Result → List Event.Line
  | .write _ m, .written => [.wrote m.kind]
  | .read _ k, .message _ => [.read k]
  | .read _ k, .failed (.truncated expected actual) => [.truncated k expected actual]
  | .decode _ k _, .failed (.truncated expected actual) => [.truncated k expected actual]
  | .lookup _, .failed (.unknownCommand code) => [.unknownCommand code]
  | .traits _, .failed (.unknownCommand code) => [.unknownCommand code]
  | .payloadLength _, .failed (.unknownCommand code) => [.unknownCommand code]
  | _, _ => []

/-! ## One call -/

theorem Route.decode_eq (route : Route) (k : Kind) (input : Bytes) :
    route.decode k input = Message.decode k input := by
  cases route with
  | dispatched => rfl
  | direct => exact (k.dispatch_eq fun α => Codec.decode α input).symm

theorem Command.lookup_cases (code : UInt16) :
    (∃ command : Command, lookup code = .quiet (.ok command.traits)) ∨
      lookup code = ⟨.error (.unknownCommand code), [.unknownCommand code]⟩ := by
  by_cases known : ∃ command : Command, Code.code command = code
  · obtain ⟨command, rfl⟩ := known
    exact .inl ⟨command, command.lookup_code⟩
  · exact .inr (lookup_unknown fun command same => known ⟨command, same⟩)

theorem Message.decode_cases (k : Kind) (input : Bytes) :
    (∃ m, decode k input = .quiet (.ok m)) ∨
      decode k input = ⟨.error (.truncated k.size input.length),
        [.truncated k.codecName k.size input.length]⟩ := by
  rw [decode_eq]
  cases (get k).run input with
  | none => exact .inr rfl
  | some taken => exact .inl ⟨taken.1, rfl⟩

namespace Call

variable {mode : Mode}

theorem perform_lines (call : Call) (s : Streams mode) :
    (call.perform s).events.map Event.line = call.lines (call.perform s).result := by
  cases call with
  | read route k =>
    -- received, cut short by the end of the stream, or by a fault
    obtain ⟨m, _, got, _⟩ | ⟨_, ended | ⟨fault, broken⟩⟩ := Mode.read_cases route k s.source
    · simp only [perform, got]
      rfl
    · simp only [perform, ended]
      rfl
    · simp only [perform, broken]
      rfl
  | write route m =>
    obtain sent | ⟨fault, failed⟩ := Mode.write_cases route m s.sink
    · simp only [perform, sent]
      rfl
    · simp only [perform, failed]
      rfl
  | encode route m => rfl
  | decode route k input =>
    rw [perform, route.decode_eq]
    obtain ⟨m, got⟩ | short := Message.decode_cases k input
    · rw [got]
      rfl
    · rw [short]
      rfl
  | lookup code =>
    rw [perform]
    obtain ⟨command, known⟩ | unknown := Command.lookup_cases code
    · rw [known]
      rfl
    · rw [unknown]
      rfl
  | command r =>
    rw [perform]
    cases r.command with
    | ok command => rfl
    | error failure => rfl
  -- a request is asked for no more than its command code
  | traits r =>
    rw [perform, Request.traits]
    obtain ⟨command, known⟩ | unknown := Command.lookup_cases r.commandType
    · rw [known]
      rfl
    · rw [unknown]
      rfl
  | payloadLength r =>
    rw [perform, Request.payloadLength, Request.traits]
    obtain ⟨command, known⟩ | unknown := Command.lookup_cases r.commandType
    · rw [known]
      rfl
    · rw [unknown]
      rfl

/-! ## Any number of calls -/

/-- The log holds the lines that the results of the calls ask for, in the order of the calls,
    and nothing else. -/
theorem log_transcribes (mode : Mode) (calls : List Call) (s : Streams mode) :
    let transcript := performAll s calls
    transcript.history.map Prod.fst = calls ∧
      transcript.log.map Event.line =
        transcript.history.flatMap fun (call, result) => call.lines result := by
  induction calls generalizing s with
  | nil => exact ⟨rfl, rfl⟩
  | cons call calls ih =>
    obtain ⟨made, logged⟩ := ih (call.perform s).streams
    simp only [performAll, List.map_cons, List.map_append, List.flatMap_cons]
    exact ⟨congrArg (call :: ·) made, congrArg₂ (· ++ ·) (perform_lines call s) logged⟩

end Call

end Nbd
