import Nbd.Proofs.Stream.Mode

/-! # Where a stream broke

A writer sends messages until a write fails; whatever bytes the sink took by then
reach a reader, cut into other chunks, with other interruptions, and possibly in the
other mode.  The reader then finds the same boundary: it receives the messages that
were sent whole, and its next read reports how much of the torn one arrived.
-/

namespace Nbd

variable {σ τ : Type}

/-! ## Sending and receiving in order -/

/-- What became of messages sent in order up to the first that failed. -/
structure Sending where
  /-- How many were sent whole. -/
  sent : Nat
  /-- All bytes the sink took. -/
  taken : Bytes
  failure? : Option Failure

/-- Sends messages in order, up to the first write that fails. -/
def Endpoint.send (e : Endpoint σ τ) : List Message → τ → Sending
  | [], _ => ⟨0, [], none⟩
  | m :: messages, s =>
    let d := e.write m s
    match d.result with
    | .ok () =>
      let later := e.send messages d.rest
      ⟨later.sent + 1, d.taken ++ later.taken, later.failure?⟩
    | .error failure => ⟨0, d.taken, some failure⟩

/-- Receives messages of the given kinds in order. -/
def Endpoint.receive (e : Endpoint σ τ) : List Kind → σ → List (Except Failure Message) × σ
  | [], s => ([], s)
  | k :: kinds, s =>
    let r := e.read k s
    let later := e.receive kinds r.rest
    (r.result :: later.1, later.2)

theorem Endpoint.receive_append (e : Endpoint σ τ) (kinds others : List Kind) (s : σ) :
    e.receive (kinds ++ others) s =
      ((e.receive kinds s).1 ++ (e.receive others (e.receive kinds s).2).1,
        (e.receive others (e.receive kinds s).2).2) := by
  induction kinds generalizing s with
  | nil => rfl
  | cons k kinds ih => simp only [List.cons_append, receive, ih]

namespace Mode

variable {mode : Mode} (route : Route)

/-- A sender has sent all its messages, or those before the one that failed and a front
    part of that. -/
theorem send_cases (messages : List Message) (s : mode.Sink) :
    let sending := (mode.endpoint route).send messages s
    (sending.failure? = none ∧ sending.sent = messages.length ∧
        sending.taken = messages.flatMap Message.encode) ∨
      ∃ whole m others failure n, messages = whole ++ m :: others ∧
        sending.failure? = some failure ∧ sending.sent = whole.length ∧ n < m.kind.size ∧
        sending.taken = whole.flatMap Message.encode ++ m.encode.take n := by
  -- the sink changes from message to message; a failure ends the induction where it happens
  induction messages generalizing s with
  | nil => exact .inl ⟨rfl, rfl, rfl⟩
  | cons m messages ih =>
    have takes : ((mode.endpoint route).write m s).Takes m := write_takes route m s
    obtain ⟨done, all⟩ | ⟨fault, n, failed, less, front⟩ := takes
    · simp only [Endpoint.send, done, all]
      obtain ⟨none, sent, taken⟩ |
          ⟨whole, torn, others, failure, n, rfl, failed, sent, less, taken⟩ :=
        ih ((mode.endpoint route).write m s).rest
      · refine .inl ⟨none, ?_, ?_⟩
        · rw [sent, List.length_cons]
        · rw [taken, List.flatMap_cons]
      · refine .inr ⟨m :: whole, torn, others, failure, n, rfl, failed, ?_, less, ?_⟩
        · rw [sent, List.length_cons]
        · rw [taken, List.flatMap_cons, List.append_assoc]
    · simp only [Endpoint.send, failed, front]
      exact .inr ⟨[], m, messages, .sink fault, n, rfl, rfl, rfl, less, rfl⟩

/-- A read whose message stands in front of the flow receives it and leaves the rest. -/
theorem read_flow (m : Message) {more : Bytes} {s : mode.Source}
    (front : (mode.settled s).flow = m.encode ++ more) :
    let r := (mode.endpoint route).read m.kind s
    r.result = .ok m ∧ (mode.settled r.rest).flow = more ∧
      (mode.settled r.rest).fault? = (mode.settled s).fault? := by
  obtain ⟨answered, left⟩ := read_settled route m.kind s
  have enough : m.kind.size ≤ (mode.settled s).flow.length := by
    rw [front, List.length_append, m.length_encode]
    exact Nat.le_add_right _ _
  obtain ⟨remains, stopped⟩ := Source.flow_skip enough
  rw [front, List.drop_left' m.length_encode] at remains
  refine ⟨?_, ?_, ?_⟩
  · rw [answered, m.collected_encode front, Message.received_encode]
  · rw [left, remains]
  · rw [left, stopped]

/-- A read that meets the end of the flow early reports how far it came. -/
theorem read_ended {k : Kind} {s : mode.Source}
    (short : (mode.settled s).flow.length < k.size) (ended : (mode.settled s).fault? = none) :
    ((mode.endpoint route).read k s).result =
      .error (.truncated k.size (mode.settled s).flow.length) := by
  obtain ⟨answered, _⟩ := read_settled route k s
  have fell : Blocking.collected k.size [] (mode.settled s) =
      .error (.endOfStream (mode.settled s).flow.length) := by
    rw [Blocking.collected, if_neg (Nat.not_le_of_lt short), ended, List.length_nil, Nat.zero_add]
    rfl
  rw [answered, fell, Message.received_endOfStream]

theorem receive_flow (messages : List Message) {more : Bytes} {s : mode.Source}
    (front : (mode.settled s).flow = messages.flatMap Message.encode ++ more) :
    let received := (mode.endpoint route).receive (messages.map Message.kind) s
    received.1 = messages.map .ok ∧ (mode.settled received.2).flow = more ∧
      (mode.settled received.2).fault? = (mode.settled s).fault? := by
  induction messages generalizing s with
  | nil => exact ⟨rfl, front, rfl⟩
  | cons m messages ih =>
    rw [List.flatMap_cons, List.append_assoc] at front
    obtain ⟨got, left, stopped⟩ := read_flow route m front
    obtain ⟨gotAll, leftAll, stoppedAll⟩ := ih left
    simp only [List.map_cons, Endpoint.receive]
    exact ⟨by rw [got, gotAll], leftAll, stoppedAll.trans stopped⟩

theorem receive_torn (messages : List Message) {part : Bytes} {s : mode.Source} {next : Kind}
    (transmitted : (mode.settled s).Transmits (messages.flatMap Message.encode ++ part))
    (short : part.length < next.size) :
    ((mode.endpoint route).receive (messages.map Message.kind ++ [next]) s).1 =
      messages.map .ok ++ [.error (.truncated next.size part.length)] := by
  obtain ⟨flows, ended⟩ := transmitted.flow_eq
  obtain ⟨got, left, stopped⟩ := receive_flow route messages flows
  rw [← left] at short
  have last := read_ended route short (stopped.trans ended)
  rw [Endpoint.receive_append]
  simp only [Endpoint.receive, got, last, left]

end Mode

/-- The reader receives what was sent whole, and then reports how much of the message that
    was torn has arrived: none of it if no write failed. -/
theorem reader_finds_torn_message (writer reader : Mode) (out back : Route)
    (messages : List Message) (sink : writer.Sink) (source : reader.Source) (next : Kind)
    (transmitted :
      (reader.settled source).Transmits ((writer.endpoint out).send messages sink).taken)
    (failed : ((writer.endpoint out).send messages sink).failure? = none ∨
      (messages[((writer.endpoint out).send messages sink).sent]?).map Message.kind = some next) :
    let sending := (writer.endpoint out).send messages sink
    let whole := messages.take sending.sent
    ∃ torn, whole.length = sending.sent ∧
      sending.taken.length = (whole.map Message.encodedLength).sum + torn ∧
      torn < next.size ∧ (sending.failure? = none → torn = 0) ∧
      ((reader.endpoint back).receive (whole.map Message.kind ++ [next]) source).1 =
        whole.map .ok ++ [.error (.truncated next.size torn)] := by
  intro sending whole
  obtain ⟨none, sent, taken⟩ | ⟨front, m, others, failure, n, split, broke, sent, less, taken⟩ :=
    Mode.send_cases out messages sink
  · -- every message was sent: nothing is torn, whatever is asked for next
    have all : whole = messages := List.take_of_length_le (Nat.le_of_eq sent.symm)
    rw [taken, ← List.append_nil (messages.flatMap Message.encode)] at transmitted
    refine ⟨0, ?_, ?_, next.size_pos, fun _ => rfl, ?_⟩
    · rw [all, sent]
    · rw [all, taken, Message.length_flatMap_encode, Nat.add_zero]
    · rw [all]
      exact Mode.receive_torn back messages transmitted next.size_pos
  · -- the sink took `n` bytes of `m`, which is what the reader asks for next
    have before : whole = front := by
      change messages.take _ = front
      rw [sent, split, List.take_left]
    have kind : m.kind = next := by
      obtain none | kind := failed
      · cases none.symm.trans broke
      · rw [sent, split] at kind
        simpa using kind
    subst kind
    have part : (m.encode.take n).length = n := by
      rw [List.length_take, m.length_encode, Nat.min_eq_left (Nat.le_of_lt less)]
    refine ⟨n, ?_, ?_, less, fun none => ?_, ?_⟩
    · rw [before, sent]
    · rw [before, taken, List.length_append, Message.length_flatMap_encode, part]
    · cases none.symm.trans broke
    · rw [taken] at transmitted
      have received := Mode.receive_torn back front transmitted (part.symm ▸ less)
      rwa [part, ← before] at received

theorem reader_finds_torn_word :
    let messages : List Message := [.word (.w16 0x0102), .word (.w32 0x03040506)]
    -- the last call takes nothing, three bytes into the second word
    let sink : PollSink := [.pending, .ready (.accept 1), .pending, .ready (.accept 9),
      .ready (.accept 3), .ready (.accept 0)]
    let source : Source := [.data ⟨1, [2, 3]⟩, .fault ⟨.interrupted, "signal"⟩, .data ⟨4, [5]⟩]
    let sending := (Mode.suspending.endpoint .direct).send messages sink
    source.Transmits sending.taken ∧
      messages[sending.sent]?.map Message.kind = some (.word .w32) ∧
      ((Mode.blocking.endpoint .dispatched).receive [.word .w16, .word .w32] source).1 =
        [.ok (.word (.w16 0x0102)), .error (.truncated 4 3)] := by
  intro messages sink source sending
  have taken : sending.taken = [1, 2, 3, 4, 5] := by decide +kernel
  have sent : sending.sent = 1 := by decide +kernel
  have transmitted : source.Transmits sending.taken := by
    rw [taken]
    exact .data ⟨1, [2, 3]⟩ (.interrupted rfl (.data ⟨4, [5]⟩ .exhausted))
  have failed : messages[sending.sent]?.map Message.kind = some (.word .w32) := by
    rw [sent]
    rfl
  obtain ⟨torn, _, total, _, _, received⟩ := reader_finds_torn_message .suspending .blocking
    .direct .dispatched messages sink source (.word .w32) transmitted (.inr failed)
  have short : torn = 3 := by
    change sending.taken.length = ((messages.take sending.sent).map _).sum + torn at total
    rw [taken, sent] at total
    change 5 = 2 + torn at total
    omega
  refine ⟨transmitted, failed, ?_⟩
  change (Endpoint.receive _ ((messages.take sending.sent).map _ ++ _) _).1 =
    (messages.take sending.sent).map _ ++ _ at received
  rw [sent, short] at received
  exact received

end Nbd
