import Mathlib.Data.List.Forall2
import Nbd.Proofs.Stream.Mode

/-! # Suspension does not show

A suspending session over scripts with suspensions does, step for step, what a blocking
session does over the same scripts without them: it receives and sends the same messages,
fails alike, logs the same, and leaves the same scripts behind.  The one thing that may
differ is how the fault of a sink that takes nothing is worded.

Taking a payload is left out.  It is no call of the library, but the session taking data
that lies in front, and a suspension in front means that none does.
-/

namespace Nbd

/-! ## Reads and writes -/

/-- A suspending read does what the blocking one does. -/
theorem Suspending.read_settled (route : Route) (k : Kind) (s : PollSource) :
    let suspending := (endpoint route).read k s
    (Blocking.endpoint route).read k (Poll.settled s) =
      ⟨suspending.toAnswer, Poll.settled suspending.rest⟩ := by
  rw [Blocking.read_eq, Suspending.read_eq, fill_settled]

/-- A suspending write did what a blocking one did, one wording aside. -/
structure Delivered.Agrees (suspending : Delivered PollSink) (blocking : Delivered Sink) :
    Prop where
  taken : suspending.taken = blocking.taken
  rest : Poll.settled suspending.rest = blocking.rest
  events : suspending.events = blocking.events
  result : suspending.result = blocking.result ∨
    suspending.result = .error (.sink Suspending.noProgress) ∧
      blocking.result = .error (.sink Blocking.noProgress)

theorem Written.Agrees.delivered {suspending : Written PollSink} {blocking : Written Sink}
    (agrees : suspending.Agrees blocking) (m : Message) :
    (m.delivered suspending).Agrees (m.delivered blocking) where
  taken := agrees.taken
  rest := agrees.rest
  events := by
    obtain same | ⟨worded, stuck⟩ := agrees.result
    · simp only [Message.delivered, Codec.delivered, same]
    · rw [m.delivered_error worded, m.delivered_error stuck]
      rfl
  result := by
    obtain same | ⟨worded, stuck⟩ := agrees.result
    · left
      simp only [Message.delivered, Codec.delivered, same]
    · right
      rw [m.delivered_error worded, m.delivered_error stuck]
      exact ⟨rfl, rfl⟩

theorem Suspending.write_settled (route : Route) (m : Message) (s : PollSink) :
    ((endpoint route).write m s).Agrees
      ((Blocking.endpoint route).write m (Poll.settled s)) := by
  rw [Suspending.write_eq, Blocking.write_eq]
  exact (drain_settled m.encode s).delivered m

theorem Suspending.contents_settled (route : Route) (s : PollSource) :
    (endpoint route).contents s = (Blocking.endpoint route).contents (Poll.settled s) := by
  cases route <;> rfl

/-! ## One step -/

/-- A session's streams without their suspensions. -/
def Session.settled (s : Session PollSource PollSink) : Session Source Sink where
  source := Poll.settled s.source
  sink := Poll.settled s.sink
  lastRequest? := s.lastRequest?

/-- The same came of a step in both modes, one wording aside. -/
structure Step.Report.Agrees (suspending blocking : Step.Report) : Prop where
  events : suspending.events = blocking.events
  wrote : suspending.wrote = blocking.wrote
  left : suspending.left = blocking.left
  outcome : suspending.outcome = blocking.outcome ∨
    suspending.outcome = .failed (.sink Suspending.noProgress) ∧
      blocking.outcome = .failed (.sink Blocking.noProgress)

theorem Step.Report.Agrees.refl (report : Step.Report) : report.Agrees report :=
  ⟨rfl, rfl, rfl, .inl rfl⟩

namespace Session

/-- A step of a suspending session and the step of the blocking one agree. -/
def Agree (suspending : Session PollSource PollSink × Step.Report)
    (blocking : Session Source Sink × Step.Report) : Prop :=
  suspending.1.settled = blocking.1 ∧ suspending.2.Agrees blocking.2

variable (route : Route) (s : Session PollSource PollSink)

theorem read_agree (k : Kind) :
    Agree (s.read (Suspending.endpoint route) k) (s.settled.read (Blocking.endpoint route) k) := by
  have reads : (Blocking.endpoint route).read k s.settled.source = _ :=
    Suspending.read_settled route k s.source
  have remains :=
    Suspending.contents_settled route ((Suspending.endpoint route).read k s.source).rest
  unfold Session.read
  simp only [reads, remains]
  cases ((Suspending.endpoint route).read k s.source).result with
  | ok message => exact ⟨rfl, .refl _⟩
  | error failure => exact ⟨rfl, .refl _⟩

theorem write_agree (m : Message) :
    Agree (s.write (Suspending.endpoint route) m)
      (s.settled.write (Blocking.endpoint route) m) := by
  have writes : Delivered.Agrees _ ((Blocking.endpoint route).write m s.settled.sink) :=
    Suspending.write_settled route m s.sink
  have remains := Suspending.contents_settled route s.source
  refine ⟨?_, writes.events, writes.taken, congrArg List.length remains, ?_⟩
  · exact congrArg (fun sink => (⟨Poll.settled s.source, sink, s.lastRequest?⟩ : Session _ _))
      writes.rest
  · obtain same | ⟨worded, stuck⟩ := writes.result
    · left
      simp only [Session.write, same]
    · right
      simp only [Session.write, worded, stuck, and_self]

theorem withRequest_agree {act : Request → Session PollSource PollSink × Step.Report}
    {blockingAct : Request → Session Source Sink × Step.Report}
    (acts : ∀ request, Agree (act request) (blockingAct request)) :
    Agree (s.withRequest (Suspending.endpoint route) act)
      (s.settled.withRequest (Blocking.endpoint route) blockingAct) := by
  have remains := Suspending.contents_settled route s.source
  obtain ⟨source, sink, lastRequest?⟩ := s
  cases lastRequest? with
  | some request => exact acts request
  | none => exact ⟨rfl, rfl, rfl, congrArg List.length remains, .inl rfl⟩

/-- Every step but that of taking a payload agrees in the two modes. -/
theorem step_agree {step : Step} (call : step ≠ .payload) :
    Agree (s.step (Suspending.endpoint route) step)
      (s.settled.step (Blocking.endpoint route) step) := by
  cases step with
  | read kind => exact read_agree route s kind
  | write message => exact write_agree route s message
  | payload => exact absurd rfl call
  | reply error => exact withRequest_agree route s fun request => write_agree route s _

/-! ## Whole sessions -/

/-- A suspending session does step by step what the blocking session does that never has
    to wait, and leaves its scripts behind. -/
theorem run_refines_blocking (route : Route) (steps : List Step)
    (s : Session PollSource PollSink) (calls : ∀ step ∈ steps, step ≠ .payload) :
    let suspending := s.run (Suspending.endpoint route) steps
    let blocking := s.settled.run (Blocking.endpoint route) steps
    List.Forall₂ Step.Report.Agrees suspending.2 blocking.2 ∧
      suspending.1.settled = blocking.1 := by
  -- the simulation is that the blocking session is the settled suspending one
  induction steps generalizing s with
  | nil => exact ⟨.nil, rfl⟩
  | cons step steps ih =>
    obtain ⟨call, calls⟩ := List.forall_mem_cons.mp calls
    obtain ⟨after, report⟩ := step_agree route s call
    obtain ⟨reports, final⟩ := ih (s.step (Suspending.endpoint route) step).1 calls
    simp only [Session.run]
    rw [after] at reports final
    exact ⟨.cons report reports, final⟩

theorem run_refines_blocking_stuck :
    let signal : Fault := ⟨.interrupted, "signal"⟩
    let steps : List Step :=
      [.read (.word .w16), .write (.word (.w16 7)), .reply none, .read .reply]
    let s : Session PollSource PollSink := {
      source := [.pending, .ready (.data ⟨1, []⟩), .pending, .ready (.fault signal),
        .ready (.data ⟨2, [3]⟩), .pending, .ready .endOfStream, .pending, .ready (.data ⟨4, []⟩)]
      sink := [.pending, .ready (.accept 1), .pending, .ready (.accept 0), .pending] }
    let suspending := s.run (Suspending.endpoint .direct) steps
    let blocking := s.settled.run (Blocking.endpoint .direct) steps
    (∀ step ∈ steps, step ≠ .payload) ∧
      suspending.2.map Step.Report.outcome = [.received (.word (.w16 0x0102)),
        .failed (.sink Suspending.noProgress), .noRequest, .failed (.truncated 16 1)] ∧
      blocking.2.map Step.Report.outcome = [.received (.word (.w16 0x0102)),
        .failed (.sink Blocking.noProgress), .noRequest, .failed (.truncated 16 1)] ∧
      List.Forall₂ Step.Report.Agrees suspending.2 blocking.2 ∧
      suspending.1.settled = blocking.1 := by
  intro signal steps s suspending blocking
  have calls : ∀ step ∈ steps, step ≠ .payload := by decide
  obtain ⟨reports, final⟩ := run_refines_blocking .direct steps s calls
  exact ⟨calls, by decide +kernel, by decide +kernel, reports, final⟩

end Session

end Nbd
