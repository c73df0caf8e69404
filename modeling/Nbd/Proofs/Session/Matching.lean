import Nbd.Proofs.Session.Framing

/-! # Replies in any order

A server may answer requests in an order of its own.  As long as no two requests carry the
same handle, a client that reads as many replies as it sent requests can tell for each
request which reply is the one to it, and what error it reports.
-/

namespace Nbd

/-! ## Sinks that keep going, in either mode -/

namespace Mode

/-- Every call on the sink takes something, is not ready, or is interrupted.  That a suspending
    write outlives an interruption is the assumption made of `Suspending.drain`. -/
def Steady : (mode : Mode) → mode.Sink → Prop
  | .blocking, s => s.Steady
  | .suspending, s => Sink.Steady (Poll.settled s)

variable {mode : Mode} (route : Route)

theorem write_steady (m : Message) {s : mode.Sink} (steady : mode.Steady s) :
    let d := (mode.endpoint route).write m s
    d.result = .ok () ∧ mode.Steady d.rest := by
  cases mode with
  | blocking =>
    obtain ⟨done, _, remains⟩ := Blocking.write_steady route m steady
    exact ⟨done, remains⟩
  | suspending =>
    have agrees := Suspending.drain_settled m.encode s
    obtain ⟨done, remains⟩ := Blocking.drain_steady steady m.encode
    rw [endpoint, Suspending.write_eq]
    constructor
    · obtain same | ⟨_, stuck⟩ := agrees.result
      · exact congrArg Answer.result (m.delivered_ok (same.trans done))
      · cases stuck.symm.trans done
    · change Sink.Steady (Poll.settled (Suspending.drain m.encode s).rest)
      rwa [agrees.rest]

theorem send_steady (messages : List Message) {s : mode.Sink} (steady : mode.Steady s) :
    ((mode.endpoint route).send messages s).failure? = none := by
  induction messages generalizing s with
  | nil => rfl
  | cons m messages ih =>
    obtain ⟨done, remains⟩ := write_steady route m steady
    simp only [Endpoint.send, done]
    exact ih remains

/-- Messages of one kind are received as they were encoded, however their bytes are cut. -/
theorem receive_alike {k : Kind} {messages : List Message} (alike : ∀ m ∈ messages, m.kind = k)
    {s : mode.Source} (carried : (mode.settled s).Transmits (messages.flatMap Message.encode)) :
    ((mode.endpoint route).receive (.replicate messages.length k) s).1 = messages.map .ok := by
  obtain ⟨flows, _⟩ := carried.flow_eq
  rw [← List.append_nil (List.flatMap _ _)] at flows
  obtain ⟨received, _⟩ := receive_flow route messages flows
  rwa [List.map_eq_replicate_iff.mpr alike] at received

end Mode

/-! ## Handles -/

/-- The requests among what was received. -/
def requestsIn (received : List (Except Failure Message)) : List Request :=
  received.filterMap fun
    | .ok (.request r) => some r
    | _ => none

theorem requestsIn_map_ok (requests : List Request) :
    requestsIn (requests.map fun r => .ok (.request r)) = requests := by
  rw [requestsIn, List.filterMap_map]
  exact List.filterMap_some

/-- Each request finds one reply that carries its handle, with the error assigned to it, and
    every reply carries the handle of a request. -/
structure Matched (requests : List Request) (error : Request → Option ErrorCode)
    (replies : List Reply) : Prop where
  one : ∀ r ∈ requests, ∃ reply, (replies.filter fun x => x.handle = r.handle) = [reply] ∧
    reply.errorCode = .ok (error r)
  known : ∀ reply ∈ replies, reply.handle ∈ requests.map Request.handle

theorem matched_of_perm {requests order : List Request}
    (distinct : (requests.map Request.handle).Nodup) (reordered : order.Perm requests)
    (error : Request → Option ErrorCode) :
    Matched requests error (order.map fun r => .answering r (error r)) := by
  have apart : (order.map Request.handle).Nodup :=
    (reordered.map Request.handle).nodup_iff.mpr distinct
  constructor
  · intro r listed
    refine ⟨.answering r (error r), ?_, Reply.errorCode_answering r (error r)⟩
    rw [List.filter_map]
    exact congrArg (List.map _) (filter_key apart (reordered.mem_iff.mpr listed))
  · intro reply listed
    obtain ⟨r, answered, rfl⟩ := List.mem_map.mp listed
    exact List.mem_map_of_mem (reordered.mem_iff.mp answered)

/-! ## Requests there and replies back -/

/-- A server that receives requests with distinct handles and answers them in another order
    is understood all the same: the client finds one reply to each request, with the error
    that was assigned to it, and no other. -/
theorem replies_match_requests (server client : Mode) (into out back : Route)
    (requests order : List Request) (error : Request → Option ErrorCode)
    (inbox : server.Source) (outbox : server.Sink)
    (distinct : (requests.map Request.handle).Nodup)
    (carried : (server.settled inbox).Transmits ((requests.map .request).flatMap Message.encode))
    (reordered : order.Perm (requestsIn
      ((server.endpoint into).receive (.replicate requests.length .request) inbox).1)) :
    let received := ((server.endpoint into).receive (.replicate requests.length .request) inbox).1
    let sending := (server.endpoint out).send
      (order.map fun r => .reply (.answering r (error r))) outbox
    received = requests.map (fun r => .ok (.request r)) ∧
      (server.Steady outbox → sending.failure? = none) ∧
      (sending.failure? = none → ∀ source : client.Source,
        (client.settled source).Transmits sending.taken →
        ∃ replies : List Reply, Matched requests error replies ∧
          ((client.endpoint back).receive (.replicate requests.length .reply) source).1 =
            replies.map fun reply => .ok (.reply reply)) := by
  intro received sending
  have arrived : received = requests.map fun r => .ok (.request r) := by
    have alike : ∀ m ∈ requests.map Message.request, m.kind = .request := by simp [Message.kind]
    have got := Mode.receive_alike into alike carried
    rwa [List.length_map, List.map_map] at got
  refine ⟨arrived, Mode.send_steady out _, ?_⟩
  intro written source transmitted
  change order.Perm (requestsIn received) at reordered
  rw [arrived, requestsIn_map_ok] at reordered
  refine ⟨order.map fun r => .answering r (error r), matched_of_perm distinct reordered error, ?_⟩
  -- no write failed, so the bytes on their way back are those of every answer, in order
  have all : sending.taken =
      (order.map fun r => .reply (.answering r (error r))).flatMap Message.encode := by
    obtain ⟨_, _, taken⟩ | ⟨_, _, _, _, _, _, failed, _⟩ := Mode.send_cases out _ outbox
    · exact taken
    · cases written.symm.trans failed
  rw [all] at transmitted
  have alike : ∀ m ∈ order.map (fun r => Message.reply (.answering r (error r))),
      m.kind = .reply := by simp [Message.kind]
  have got := Mode.receive_alike back alike transmitted
  rw [List.length_map, reordered.length_eq, List.map_map] at got
  rw [got, List.map_map]
  rfl

theorem replies_match_requests_swapped :
    let signal : Fault := ⟨.interrupted, "signal"⟩
    -- each request has the other's handle for its offset
    let read : Request := .of .read .empty 1 2 4
    let write : Request := .of .write .empty 2 1 0
    let error : Request → Option ErrorCode :=
      fun r => if r.handle = 1 then none else some .noSpaceLeft
    let sent := [.request read, .request write].flatMap Message.encode
    let inbox : PollSource := .pending :: (Source.push sent []).map .ready
    -- the first reply is cut in two places, and the second is taken whole
    let outbox : PollSink := [.ready (.accept 20), .pending, .ready (.accept 5)]
    let server := Mode.suspending.endpoint .dispatched
    let received := (server.receive [.request, .request] inbox).1
    let sending := server.send
      ([write, read].map fun r => .reply (.answering r (error r))) outbox
    let source : Source := .fault signal :: Source.push sending.taken []
    ([read, write].map Request.handle).Nodup ∧
      Source.Transmits sent (Poll.settled inbox) ∧
      [write, read].Perm (requestsIn received) ∧ Mode.suspending.Steady outbox ∧
      source.Transmits sending.taken ∧
      ∃ replies : List Reply, Matched [read, write] error replies ∧
        ((Blocking.endpoint .direct).receive [.reply, .reply] source).1 =
          replies.map fun reply => .ok (.reply reply) := by
  intro signal read write error sent inbox outbox server received sending source
  have distinct : ([read, write].map Request.handle).Nodup := by decide
  have carried : Source.Transmits sent (Poll.settled inbox) := by
    change Source.Transmits _ (Poll.settled ((Source.push sent []).map .ready))
    rw [Poll.settled_map_ready]
    exact .push _
  have found : requestsIn received = [read, write] := by decide +kernel
  have reordered : [write, read].Perm (requestsIn received) := by
    rw [found]
    exact .swap read write []
  have steady : Mode.suspending.Steady outbox := by
    simp [Mode.Steady, Sink.Steady, SinkItem.Steady, outbox]
  have transmitted : source.Transmits sending.taken := .interrupted rfl (.push _)
  obtain ⟨_, written, understood⟩ := replies_match_requests .suspending .blocking .dispatched
    .dispatched .direct [read, write] [write, read] error inbox outbox distinct carried reordered
  exact ⟨distinct, carried, reordered, steady, transmitted,
    understood (written steady) source transmitted⟩

end Nbd
