import Mathlib.Data.List.Forall2
import Nbd.Proofs.Session.Torn
import Nbd.Proofs.Stream.Chunking
import Nbd.Proofs.Transmission

/-! # A command stream keeps its framing

A server repeats three steps: it reads the header of a request, takes the data that the
header announces, and replies.  Over a source that carries well-formed exchanges it finds
every header and every payload where they are, leaves the rest of the source as it was,
and its replies reach any client.  A header with an unknown command is still read whole;
how much data follows it is not known, and nothing after it is touched.
-/

namespace Nbd

/-! ## Exchanges -/

/-- A request, the data that follows its header, and what the server will answer. -/
structure Exchange where
  request : Request
  payload : Bytes
  error : Option ErrorCode

namespace Exchange

/-- The command is known and the data is as long as the header says. -/
def Framed (x : Exchange) : Prop := x.request.payloadLength.result = .ok x.payload.length

theorem framed_iff {x : Exchange} :
    x.Framed ↔ ∃ command, x.request.command = .ok command ∧
      x.payload.length = if command = .write then x.request.length.toNat else 0 := by
  unfold Framed
  cases known : x.request.command with
  | ok command =>
    rw [Request.payloadLength_known known]
    simp [Answer.quiet, eq_comm]
  | error failure =>
    rw [Request.payloadLength_unknown known]
    simp

def reply (x : Exchange) : Reply := .answering x.request x.error

/-- The steps of a server that serves an exchange. -/
def steps (x : Exchange) : List Step := [.read .request, .payload, .reply x.error]

/-- What these steps should come to. -/
def outcomes (x : Exchange) : List Step.Outcome :=
  [.received (.request x.request), .payload x.payload.length x.payload, .sent]

end Exchange

/-- A source cut into bytes carries the exchanges and then a tail.  Interruptions fall anywhere
    but between a header and the last byte of its payload. -/
inductive CommandStream (tail : Source) : List Exchange → Source → Prop where
  | tail : CommandStream tail [] tail
  | exchange {x : Exchange} {exchanges : List Exchange} {header rest : Source} :
      header.Spells (Message.request x.request).encode → CommandStream tail exchanges rest →
      CommandStream tail (x :: exchanges) (header ++ (Source.singles x.payload ++ rest))

/-- What a client should read off the reply to an exchange. -/
structure Exchange.AnsweredBy (x : Exchange) (reply : Reply) : Prop where
  magic : reply.magic = Magic.reply
  handle : reply.handle = x.request.handle
  error : reply.errorCode = .ok x.error

theorem Exchange.answeredBy_reply (x : Exchange) : x.AnsweredBy x.reply :=
  ⟨rfl, rfl, Reply.errorCode_answering x.request x.error⟩

/-! ## One exchange -/

/-- Reading a message takes its bytes, and whatever is after them stays. -/
theorem Blocking.read_spelled (route : Route) (m : Message) {s front rest : Source}
    (spells : front.Spells m.encode) (stands : s.bytewise = front ++ rest) :
    let r := (endpoint route).read m.kind s
    r.result = .ok m ∧ r.rest.bytewise = rest := by
  obtain ⟨flows, left⟩ := spells.take_append rest
  rw [← stands, Source.flow_bytewise] at flows
  rw [← stands, m.length_encode, ← Source.bytewise_skip] at left
  rw [read_eq, fill_start, m.collected_encode flows, Message.received_encode]
  exact ⟨rfl, left⟩

/-- Writing a message to a steady sink succeeds. -/
theorem Blocking.write_steady (route : Route) (m : Message) {s : Sink} (steady : s.Steady) :
    let d := (endpoint route).write m s
    d.result = .ok () ∧ d.taken = m.encode ∧ d.rest.Steady := by
  obtain ⟨done, remains⟩ := drain_steady steady m.encode
  have all : (drain m.encode s).taken = m.encode := by
    obtain ⟨_, all⟩ | ⟨_, _, failed, _⟩ := drain_takes m.encode s
    · exact all
    · cases done.symm.trans failed
  rw [write_eq]
  exact ⟨congrArg Answer.result (m.delivered_ok done), all, remains⟩

namespace Session

variable (route : Route) {s : Session Source Sink} {r : Request}

theorem step_read_request {header rest : Source}
    (spells : header.Spells (Message.request r).encode)
    (front : s.source.bytewise = header ++ rest) :
    let served := s.step (Blocking.endpoint route) (.read .request)
    served.2.outcome = .received (.request r) ∧ served.2.wrote = [] ∧
      served.1.source.bytewise = rest ∧ served.1.sink = s.sink ∧
      served.1.lastRequest? = some r := by
  obtain ⟨got, left⟩ := Blocking.read_spelled route (.request r) spells front
  change ((Blocking.endpoint route).read .request s.source).result = _ at got
  simp only [step, read, got]
  exact ⟨trivial, trivial, left, trivial, trivial⟩

theorem step_payload {data : Bytes} {rest : Source} (last : s.lastRequest? = some r)
    (announced : r.payloadLength.result = .ok data.length)
    (front : s.source.bytewise = Source.singles data ++ rest) :
    let served := s.step (Blocking.endpoint route) .payload
    served.2.outcome = .payload data.length data ∧ served.2.wrote = [] ∧
      served.1.source.bytewise = rest ∧ served.1.sink = s.sink ∧
      served.1.lastRequest? = some r := by
  have takes : (Blocking.endpoint route).takeData = Source.takeData := by cases route <;> rfl
  have taken : s.source.bytewise.takeData data.length = (data, rest) := by
    rw [front, Source.takeData_singles_append, Nat.sub_self, Source.takeData_zero,
      List.take_length, List.drop_length, List.append_nil]
    rfl
  rw [Source.bytewise_takeData, Prod.mk.injEq] at taken
  obtain ⟨whole, left⟩ := taken
  simp only [step, withRequest, last, payload, announced, takes, whole]
  exact ⟨trivial, trivial, left, trivial, trivial⟩

/-- The data behind an unknown command is not touched. -/
theorem step_payload_unknown {failure : Failure} (last : s.lastRequest? = some r)
    (unknown : r.command = .error failure) :
    let served := s.step (Blocking.endpoint route) .payload
    served.2.outcome = .failed failure ∧ served.1 = s := by
  simp only [step, withRequest, last, payload, Request.payloadLength_unknown unknown, and_self]

theorem step_reply (error : Option ErrorCode) (last : s.lastRequest? = some r)
    (steady : s.sink.Steady) :
    let served := s.step (Blocking.endpoint route) (.reply error)
    served.2.outcome = .sent ∧
      served.2.wrote = (Message.reply (.answering r error)).encode ∧
      served.1.source = s.source ∧ served.1.sink.Steady := by
  obtain ⟨done, all, remains⟩ :=
    Blocking.write_steady route (.reply (.answering r error)) steady
  simp only [step, withRequest, last, write, done, all]
  exact ⟨trivial, trivial, trivial, remains⟩

/-- Serving an exchange takes its bytes off the source and sends its reply. -/
theorem run_exchange {x : Exchange} {header rest : Source} (framed : x.Framed)
    (spells : header.Spells (Message.request x.request).encode)
    (front : s.source.bytewise = header ++ (Source.singles x.payload ++ rest))
    (steady : s.sink.Steady) :
    let served := s.run (Blocking.endpoint route) x.steps
    served.2.map Step.Report.outcome = x.outcomes ∧
      served.2.flatMap Step.Report.wrote = (Message.reply x.reply).encode ∧
      served.1.source.bytewise = rest ∧ served.1.sink.Steady := by
  -- each step leaves the request remembered and the next bytes in front for the step after it
  obtain ⟨received, quietly, front, sink, last⟩ := step_read_request route spells front
  rw [← sink] at steady
  obtain ⟨took, silently, front, sink, last⟩ := step_payload route last framed front
  rw [← sink] at steady
  obtain ⟨sent, wrote, source, steady⟩ := step_reply route x.error last steady
  rw [← source] at front
  refine ⟨?_, ?_, front, steady⟩
  · simp only [Exchange.steps, run, List.map_cons, List.map_nil, received, took, sent,
      Exchange.outcomes]
  · simp only [Exchange.steps, run, List.flatMap_cons, List.flatMap_nil, quietly, silently, wrote,
      List.nil_append, List.append_nil, Exchange.reply]

/-! ## Any number of exchanges -/

theorem run_append {σ τ : Type} (e : Endpoint σ τ) (s : Session σ τ) (steps others : List Step) :
    s.run e (steps ++ others) =
      (((s.run e steps).1.run e others).1,
        (s.run e steps).2 ++ ((s.run e steps).1.run e others).2) := by
  induction steps generalizing s with
  | nil => rfl
  | cons step steps ih => simp only [List.cons_append, run, ih]

theorem run_exchanges {tail stream : Source} {exchanges : List Exchange}
    (carried : CommandStream tail exchanges stream) (stands : s.source.bytewise = stream)
    (framed : ∀ x ∈ exchanges, x.Framed) (steady : s.sink.Steady) :
    let served := s.run (Blocking.endpoint route) (exchanges.flatMap Exchange.steps)
    served.2.map Step.Report.outcome = exchanges.flatMap Exchange.outcomes ∧
      served.2.flatMap Step.Report.wrote =
        (exchanges.map fun x => Message.reply x.reply).flatMap Message.encode ∧
      served.1.source.bytewise = tail := by
  -- by the stream's derivation: what an exchange leaves is the stream of those after it
  induction carried generalizing s with
  | tail => exact ⟨rfl, rfl, stands⟩
  | exchange spells _ ih =>
    obtain ⟨first, later⟩ := List.forall_mem_cons.mp framed
    obtain ⟨outcomes, wrote, left, steady⟩ := run_exchange route first spells stands steady
    obtain ⟨outcomesAll, wroteAll, leftAll⟩ := ih left later steady
    simp only [List.flatMap_cons, List.map_cons, run_append, List.map_append, List.flatMap_append]
    exact ⟨congrArg₂ _ outcomes outcomesAll, congrArg₂ _ wrote wroteAll, leftAll⟩

/-- A server that serves well-formed exchanges from a source to a steady sink finds every
    request and its data, leaves what comes after them, and any client finds the replies in
    what the sink took.  If a header with an unknown command comes next, the server reads
    that and stops right behind it. -/
theorem command_stream_keeps_framing (route : Route) (exchanges : List Exchange) (tail : Source)
    (s : Session Source Sink) (framed : ∀ x ∈ exchanges, x.Framed)
    (carried : CommandStream tail.bytewise exchanges s.source.bytewise) (steady : s.sink.Steady) :
    let server := Blocking.endpoint route
    let served := s.run server (exchanges.flatMap Exchange.steps)
    (served.2.map Step.Report.outcome = exchanges.flatMap Exchange.outcomes ∧
      served.1.source.bytewise = tail.bytewise) ∧
    (∀ (client : Mode) (back : Route) (source : client.Source),
      (client.settled source).Transmits (served.2.flatMap Step.Report.wrote) →
      ∃ replies, List.Forall₂ Exchange.AnsweredBy exchanges replies ∧
        ((client.endpoint back).receive (.replicate exchanges.length .reply) source).1 =
          replies.map fun reply => .ok (.reply reply)) ∧
    (∀ (unknown : Request) (code : UInt16) (header beyond : Source),
      unknown.command = .error (.unknownCommand code) →
      header.Spells (Message.request unknown).encode → tail.bytewise = header ++ beyond →
      let stopped := s.run server (exchanges.flatMap Exchange.steps ++ [.read .request, .payload])
      stopped.2.map Step.Report.outcome = exchanges.flatMap Exchange.outcomes ++
          [.received (.request unknown), .failed (.unknownCommand code)] ∧
        stopped.1.source.bytewise = beyond) := by
  intro server served
  obtain ⟨outcomes, wrote, left⟩ := run_exchanges route carried rfl framed steady
  refine ⟨⟨outcomes, left⟩, ?_, ?_⟩
  · intro client back source transmits
    have answered : List.Forall₂ Exchange.AnsweredBy exchanges (exchanges.map Exchange.reply) :=
      List.forall₂_map_right_iff.mpr (List.forall₂_same.mpr fun x _ => x.answeredBy_reply)
    have kinds : (exchanges.map fun x => Message.reply x.reply).map Message.kind =
        .replicate exchanges.length .reply := by
      rw [List.map_map]
      exact List.map_const' ..
    obtain ⟨flows, _⟩ := transmits.flow_eq
    rw [wrote, ← List.append_nil (List.flatMap _ _)] at flows
    obtain ⟨received, _⟩ := Mode.receive_flow back _ flows
    refine ⟨exchanges.map Exchange.reply, answered, ?_⟩
    rw [← kinds, received, List.map_map, List.map_map]
    rfl
  · intro unknown code header beyond refused spells front stopped
    obtain ⟨received, _, front, _, last⟩ := step_read_request route spells (left.trans front)
    obtain ⟨failed, stays⟩ := step_payload_unknown route last refused
    constructor
    · change (s.run server (_ ++ _)).2.map _ = _
      rw [run_append, List.map_append, outcomes]
      simp only [run, List.map_cons, List.map_nil, server, received, failed]
    · change (s.run server (_ ++ _)).1.source.bytewise = _
      rw [run_append]
      simp only [run, server, stays]
      exact front

theorem command_stream_keeps_framing_write :
    let signal : Fault := ⟨.interrupted, "signal"⟩
    let write : Request := .of .write .empty 42 0 2
    let zeroes : Request := .of .writeZeroes .empty 43 512 9
    let unknown : Request := ⟨Magic.request, 0, 9, 44, 0, 1⟩
    let exchanges : List Exchange :=
      [⟨write, [0xAB, 0xCD], none⟩, ⟨zeroes, [], some .noSpaceLeft⟩]
    let beyond : Source := [.data ⟨1, [2, 3]⟩]
    let tail : Source := Source.push (Message.request unknown).encode beyond
    -- the second chunk runs from within the payload into the next header
    let source : Source := .fault signal ::
      Source.push ((Message.request write).encode ++ [0xAB])
        (Source.push (0xCD :: (Message.request zeroes).encode.take 20)
          (Source.push ((Message.request zeroes).encode.drop 20) tail))
    let s : Session Source Sink := { source, sink := [.accept 3, .fault signal, .accept 20] }
    let server := Blocking.endpoint .direct
    let client := Suspending.endpoint .dispatched
    let wrote := (s.run server (exchanges.flatMap Exchange.steps)).2.flatMap Step.Report.wrote
    let back : PollSource := .pending :: (Source.push wrote []).map .ready
    let stopped := s.run server (exchanges.flatMap Exchange.steps ++ [.read .request, .payload])
    (∀ x ∈ exchanges, x.Framed) ∧
      CommandStream tail.bytewise exchanges s.source.bytewise ∧ s.sink.Steady ∧
      (∃ replies, List.Forall₂ Exchange.AnsweredBy exchanges replies ∧
        (client.receive [.reply, .reply] back).1 =
          replies.map fun reply => .ok (.reply reply)) ∧
      stopped.2.map Step.Report.outcome = exchanges.flatMap Exchange.outcomes ++
        [.received (.request unknown), .failed (.unknownCommand 9)] ∧
      stopped.1.source.bytewise = beyond.bytewise := by
  intro signal write zeroes unknown exchanges beyond tail source s server client wrote back stopped
  have framed : ∀ x ∈ exchanges, x.Framed := by
    intro x listed
    simp only [exchanges, List.mem_cons, List.not_mem_nil, or_false] at listed
    obtain rfl | rfl := listed
    · exact Exchange.framed_iff.mpr ⟨.write, rfl, rfl⟩
    · exact Exchange.framed_iff.mpr ⟨.writeZeroes, rfl, rfl⟩
  have steady : s.sink.Steady := by
    intro item listed
    simp only [s, List.mem_cons, List.not_mem_nil, or_false] at listed
    obtain rfl | rfl | rfl := listed
    · exact Nat.zero_lt_succ 2
    · rfl
    · exact Nat.zero_lt_succ 19
  have cut : s.source.bytewise =
      (.fault signal :: Source.singles (Message.request write).encode) ++
        (Source.singles [0xAB, 0xCD] ++ (Source.singles (Message.request zeroes).encode ++
          (Source.singles [] ++ tail.bytewise))) := by decide +kernel
  have header : Source.Spells (Message.request write).encode
      (.fault signal :: Source.singles (Message.request write).encode) :=
    .interrupted rfl (.singles _)
  have carried : CommandStream tail.bytewise exchanges s.source.bytewise := by
    rw [cut]
    exact .exchange header (.exchange (.singles _) .tail)
  have transmitted : (Mode.suspending.settled back).Transmits wrote := by
    change Source.Transmits wrote (Poll.settled ((Source.push wrote []).map .ready))
    rw [Poll.settled_map_ready]
    exact .push wrote
  have front : tail.bytewise =
      Source.singles (Message.request unknown).encode ++ beyond.bytewise := by decide +kernel
  obtain ⟨_, replied, halted⟩ :=
    command_stream_keeps_framing .direct exchanges tail s framed carried steady
  exact ⟨framed, carried, steady, replied .suspending .dispatched back transmitted,
    halted unknown 9 _ _ rfl (.singles _) front⟩

end Session

end Nbd
