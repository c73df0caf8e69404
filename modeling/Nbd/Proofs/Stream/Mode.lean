import Nbd.Proofs.RoundTrip
import Nbd.Proofs.Stream.Drain
import Nbd.Proofs.Stream.Fill
import Nbd.Session

/-! # Messages in either mode

A session runs in one of two modes and reaches codecs by one of two routes.  Here the
four endpoints are brought to one form: a read is what a loop collects, decoded, and
a write is what a loop empties, reported.  With suspensions left out of the script,
a read of any endpoint is a matter of the source's flow alone (`Mode.read_settled`),
and a write takes the encoding from the front (`Mode.write_takes`).
-/

namespace Nbd

/-! ## Answers -/

namespace Message

/-- The answer to a read that collected these bytes or fell short. -/
def received (k : Kind) (collected : Except Shortfall Bytes) : Answer Message :=
  ofBody k <$> Codec.received k.Body collected

/-- The outcome of a message whose bytes were offered to a sink with outcome `w`. -/
def delivered {τ : Type} (m : Message) (w : Written τ) : Delivered τ :=
  Codec.delivered m.kind.Body w

theorem received_ok (k : Kind) (input : Bytes) :
    received k (.ok input) =
      ⟨(decode k input).result, .read k.codecName k.size :: (decode k input).events⟩ := by
  rw [decode, Kind.dispatch_eq, Kind.size_eq]
  rfl

theorem received_encode (m : Message) :
    received m.kind (.ok m.encode) = ⟨.ok m, [.read m.kind.codecName m.kind.size]⟩ := by
  rw [received_ok, decode_encode]
  rfl

theorem received_endOfStream (k : Kind) (arrived : Nat) :
    received k (.error (.endOfStream arrived)) =
      ⟨.error (.truncated k.size arrived), [.truncated k.codecName k.size arrived]⟩ := by
  rw [Kind.size_eq]
  rfl

theorem collected_encode (m : Message) {more : Bytes} {s : Source}
    (front : s.flow = m.encode ++ more) :
    Blocking.collected m.kind.size [] s = .ok m.encode := by
  have enough : m.kind.size ≤ s.flow.length := by
    rw [front, List.length_append, m.length_encode]
    exact Nat.le_add_right _ _
  rw [Blocking.collected, if_pos enough, front, List.take_left' m.length_encode, List.nil_append]

theorem delivered_ok {τ : Type} (m : Message) {w : Written τ} (done : w.result = .ok ()) :
    (delivered m w).toAnswer = ⟨.ok (), [.wrote m.kind.codecName m.kind.size]⟩ := by
  rw [delivered, Codec.delivered, done, Kind.size_eq]
  rfl

theorem delivered_error {τ : Type} (m : Message) {w : Written τ} {fault : Fault}
    (failed : w.result = .error fault) :
    (delivered m w).toAnswer = .quiet (.error (.sink fault)) := by
  rw [delivered, Codec.delivered, failed]

theorem delivered_cases {τ : Type} (m : Message) (w : Written τ) :
    (delivered m w).toAnswer = ⟨.ok (), [.wrote m.kind.codecName m.kind.size]⟩ ∨
      ∃ fault, (delivered m w).toAnswer = .quiet (.error (.sink fault)) := by
  cases written : w.result with
  | ok done => exact .inl (m.delivered_ok written)
  | error fault => exact .inr ⟨fault, m.delivered_error written⟩

end Message

/-- The sink took the whole message if the write succeeded, and a front part of it short of
    the whole if it failed. -/
def Delivered.Takes {τ : Type} (d : Delivered τ) (m : Message) : Prop :=
  (d.result = .ok () ∧ d.taken = m.encode) ∨
    ∃ fault n, d.result = .error (.sink fault) ∧ n < m.kind.size ∧ d.taken = m.encode.take n

theorem Message.delivered_takes {τ : Type} {m : Message} {w : Written τ}
    (takes : w.Takes m.encode) : (m.delivered w).Takes m := by
  obtain ⟨done, all⟩ | ⟨fault, n, failed, less, front⟩ := takes
  · exact .inl ⟨congrArg Answer.result (m.delivered_ok done), all⟩
  · rw [m.length_encode] at less
    exact .inr ⟨fault, n, congrArg Answer.result (m.delivered_error failed), less, front⟩

/-! ## Routes -/

/-- It makes no difference by which route a codec is reached. -/
theorem Blocking.endpoint_eq (route : Route) : endpoint route = endpoint .direct := by
  cases route with
  | dispatched =>
    have reads : readMessage = fun k s => Message.ofBody k <$> read k.Body s := by
      funext k s
      exact k.dispatch_eq fun α => read α s
    have writes : writeMessage = fun m s => write m.body s := by
      funext m s
      exact m.withCodec_eq fun v => write v s
    simp only [endpoint, reads, writes]
  | direct => rfl

theorem Suspending.endpoint_eq (route : Route) : endpoint route = endpoint .direct := by
  cases route with
  | dispatched =>
    have reads : readMessage = fun k s => Message.ofBody k <$> read k.Body s := by
      funext k s
      exact k.dispatch_eq fun α => read α s
    have writes : writeMessage = fun m s => write m.body s := by
      funext m s
      exact m.withCodec_eq fun v => write v s
    simp only [endpoint, reads, writes]
  | direct => rfl

theorem Blocking.read_eq (route : Route) (k : Kind) (s : Source) :
    (endpoint route).read k s =
      ⟨Message.received k (fill k.size [] s).1, (fill k.size [] s).2⟩ := by
  rw [endpoint_eq, Kind.size_eq]
  rfl

theorem Suspending.read_eq (route : Route) (k : Kind) (s : PollSource) :
    (endpoint route).read k s =
      ⟨Message.received k (fill k.size [] s).1, (fill k.size [] s).2⟩ := by
  rw [endpoint_eq, Kind.size_eq]
  rfl

theorem Blocking.write_eq (route : Route) (m : Message) (s : Sink) :
    (endpoint route).write m s = m.delivered (drain m.encode s) := by
  rw [endpoint_eq, Message.encode_eq_body]
  rfl

theorem Suspending.write_eq (route : Route) (m : Message) (s : PollSink) :
    (endpoint route).write m s = m.delivered (drain m.encode s) := by
  rw [endpoint_eq, Message.encode_eq_body]
  rfl

/-! ## Modes -/

/-- The modes of operation. -/
inductive Mode where
  | blocking
  | suspending

namespace Mode

@[reducible] def Source : Mode → Type
  | .blocking => Nbd.Source
  | .suspending => PollSource

@[reducible] def Sink : Mode → Type
  | .blocking => Nbd.Sink
  | .suspending => PollSink

def endpoint : (mode : Mode) → Route → Endpoint mode.Source mode.Sink
  | .blocking => Blocking.endpoint
  | .suspending => Suspending.endpoint

/-- What the read loop of a mode collects, and what it leaves. -/
def fill : (mode : Mode) → Nat → mode.Source → Except Shortfall Bytes × mode.Source
  | .blocking, width, s => Blocking.fill width [] s
  | .suspending, width, s => Suspending.fill width [] s

/-- The source without its suspensions. -/
def settled : (mode : Mode) → mode.Source → Nbd.Source
  | .blocking, s => s
  | .suspending, s => Poll.settled s

variable {mode : Mode} (route : Route)

theorem read_eq_fill (k : Kind) (s : mode.Source) :
    (mode.endpoint route).read k s =
      ⟨Message.received k (mode.fill k.size s).1, (mode.fill k.size s).2⟩ := by
  cases mode with
  | blocking => exact Blocking.read_eq route k s
  | suspending => exact Suspending.read_eq route k s

/-- A read of any endpoint collects from the flow of its source. -/
theorem read_settled (k : Kind) (s : mode.Source) :
    ((mode.endpoint route).read k s).toAnswer =
        Message.received k (Blocking.collected k.size [] (mode.settled s)) ∧
      mode.settled ((mode.endpoint route).read k s).rest = (mode.settled s).skip k.size := by
  have collects := Blocking.fill_start k.size (mode.settled s)
  cases mode with
  | blocking =>
    rw [endpoint, Blocking.read_eq]
    exact ⟨congrArg (fun c => Message.received k c.1) collects, congrArg Prod.snd collects⟩
  | suspending =>
    have settles := Suspending.fill_settled.symm.trans collects
    rw [endpoint, Suspending.read_eq]
    exact ⟨congrArg (fun c => Message.received k c.1) settles, congrArg Prod.snd settles⟩

/-- A read takes the bytes of the message it receives, or the whole flow if that is shorter
    than the message; each case has its trace in the log. -/
theorem read_cases (k : Kind) (s : mode.Source) :
    let answer := ((mode.endpoint route).read k s).toAnswer
    let flow := (mode.settled s).flow
    (∃ m : Message, m.kind = k ∧ answer = ⟨.ok m, [.read k.codecName k.size]⟩ ∧
        flow.take k.size = m.encode) ∨
      flow.length < k.size ∧
        (answer = ⟨.error (.truncated k.size flow.length),
            [.truncated k.codecName k.size flow.length]⟩ ∨
          ∃ fault, answer = .quiet (.error (.source fault))) := by
  intro answer flow
  have answered : answer = _ := (read_settled route k s).1
  by_cases enough : k.size ≤ flow.length
  · left
    have whole : (flow.take k.size).length = k.size := by simp [enough]
    obtain ⟨m, rfl, spelled⟩ := Message.exists_encode whole
    refine ⟨m, rfl, ?_, spelled.symm⟩
    have front : flow = m.encode ++ flow.drop m.kind.size := by
      rw [spelled, List.take_append_drop]
    rw [answered, m.collected_encode front, Message.received_encode]
  · right
    have short : flow.length < k.size := Nat.lt_of_not_le enough
    refine ⟨short, ?_⟩
    rw [answered, Blocking.collected, if_neg enough, List.length_nil, Nat.zero_add]
    cases (mode.settled s).fault? with
    | none => exact .inl (Message.received_endOfStream k flow.length)
    | some fault => exact .inr ⟨fault, rfl⟩

theorem write_takes (m : Message) (s : mode.Sink) :
    ((mode.endpoint route).write m s).Takes m := by
  cases mode with
  | blocking =>
    rw [endpoint, Blocking.write_eq]
    exact Message.delivered_takes (Blocking.drain_takes m.encode s)
  | suspending =>
    have agrees := Suspending.drain_settled m.encode s
    rw [endpoint, Suspending.write_eq]
    exact Message.delivered_takes (agrees.takes (Blocking.drain_takes _ _))

theorem write_cases (m : Message) (s : mode.Sink) :
    let answer := ((mode.endpoint route).write m s).toAnswer
    answer = ⟨.ok (), [.wrote m.kind.codecName m.kind.size]⟩ ∨
      ∃ fault, answer = .quiet (.error (.sink fault)) := by
  cases mode with
  | blocking =>
    rw [endpoint, Blocking.write_eq]
    exact m.delivered_cases _
  | suspending =>
    rw [endpoint, Suspending.write_eq]
    exact m.delivered_cases _

end Mode

end Nbd
