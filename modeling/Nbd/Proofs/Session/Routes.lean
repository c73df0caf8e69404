import Mathlib.Data.List.Forall2
import Nbd.Proofs.Stream.Mode

/-! # Two routes to one codec

A codec can be called on a value of its own type, or reached through the kind of a message.
Nothing shows which of the two was done: bytes, answers, logs and what remains of the streams
are the same, for single calls and for sessions that take now one route and now the other
(`Session.runRouted_eq`).  And since a message that is received or decoded is of the kind that
was asked for, two kinds of the same width are never taken for each other.
-/

namespace Nbd

/-! ## Calls of the codec itself -/

namespace Mode

/-- A read of the codec itself. -/
def readAs (α : Type) [Codec α] : (mode : Mode) → mode.Source → Received mode.Source α
  | .blocking, s => Blocking.read α s
  | .suspending, s => Suspending.read α s

/-- A write of the codec itself. -/
def writeAs {α : Type} [Codec α] (v : α) : (mode : Mode) → mode.Sink → Delivered mode.Sink
  | .blocking, s => Blocking.write v s
  | .suspending, s => Suspending.write v s

variable (mode : Mode)

theorem endpoint_eq (route : Route) : mode.endpoint route = mode.endpoint .direct := by
  cases mode with
  | blocking => exact Blocking.endpoint_eq route
  | suspending => exact Suspending.endpoint_eq route

theorem read_dispatched (k : Kind) (s : mode.Source) :
    (mode.endpoint .dispatched).read k s = Message.ofBody k <$> mode.readAs k.Body s := by
  rw [endpoint_eq]
  cases mode <;> rfl

theorem write_dispatched (k : Kind) (v : k.Body) (s : mode.Sink) :
    (mode.endpoint .dispatched).write (Message.ofBody k v) s = mode.writeAs v s := by
  cases mode with
  | blocking => exact Message.withCodec_ofBody k v fun v => Blocking.write v s
  | suspending => exact Message.withCodec_ofBody k v fun v => Suspending.write v s

theorem kind_of_read {route : Route} {k : Kind} {s : mode.Source} {m : Message}
    (got : ((mode.endpoint route).read k s).result = .ok m) : m.kind = k := by
  obtain ⟨n, rfl, answered, _⟩ | ⟨_, ended | ⟨_, broken⟩⟩ := read_cases route k s
  · rw [answered] at got
    cases got
    rfl
  · rw [ended] at got
    cases got
  · rw [broken] at got
    cases got

end Mode

/-! ## One step -/

/-- What the step received, if anything, is of the kind it asked for. -/
def Step.AnsweredInKind (step : Step) (report : Step.Report) : Prop :=
  ∀ k m, step = .read k → report.outcome = .received m → m.kind = k

namespace Session

variable {mode : Mode}

theorem step_in_kind (route : Route) (s : Session mode.Source mode.Sink) (step : Step) :
    step.AnsweredInKind (s.step (mode.endpoint route) step).2 := by
  intro k m asked received
  cases asked
  simp only [Session.step, read] at received
  cases got : ((mode.endpoint route).read k s.source).result with
  | ok found =>
    simp only [got, Step.Outcome.received.injEq] at received
    rw [← received]
    exact Mode.kind_of_read mode got
  | error failure =>
    rw [got] at received
    cases received

/-! ## Whole sessions -/

/-- Runs steps in order, each by the route that stands with it. -/
def runRouted (s : Session mode.Source mode.Sink) :
    List (Route × Step) → Session mode.Source mode.Sink × List Step.Report
  | [] => (s, [])
  | (route, next) :: steps =>
    let (after, report) := s.step (mode.endpoint route) next
    let (final, reports) := after.runRouted steps
    (final, report :: reports)

/-- However the routes change on the way, the run is that of any one route. -/
theorem runRouted_eq (route : Route) (s : Session mode.Source mode.Sink)
    (routed : List (Route × Step)) :
    s.runRouted routed = s.run (mode.endpoint route) (routed.map Prod.snd) := by
  induction routed generalizing s with
  | nil => rfl
  | cons first later ih =>
    obtain ⟨taken, next⟩ := first
    simp only [runRouted, List.map_cons, run, ih, mode.endpoint_eq taken, mode.endpoint_eq route]

theorem run_in_kind (route : Route) (s : Session mode.Source mode.Sink) (steps : List Step) :
    List.Forall₂ Step.AnsweredInKind steps (s.run (mode.endpoint route) steps).2 := by
  induction steps generalizing s with
  | nil => exact .nil
  | cons step steps ih => exact .cons (step_in_kind route s step) (ih _)

end Session

/-! ## Nothing shows the route -/

/-- A value and its message are laid out, decoded and moved over streams alike, also in sessions
    that mix the routes; and what comes back is of the kind that was asked for, so that of one
    input different kinds make different messages. -/
theorem routes_indistinguishable :
    (∀ (k : Kind) (v : k.Body),
      let m := Message.ofBody k v
      m.kind = k ∧ m.encodedLength = Codec.width k.Body ∧ m.encode = Codec.encode v ∧
        Message.encodeValue v = Codec.encode v ∧ m.put [] = Codec.encode v ∧
        Codec.put v [] = Codec.encode v) ∧
    (∀ (k : Kind) (input : Bytes),
      Message.decode k input = Message.ofBody k <$> Codec.decode k.Body input ∧
        Message.decodeValue k.Body input = Codec.decode k.Body input) ∧
    (∀ (mode : Mode) (k : Kind),
      (∀ s, (mode.endpoint .dispatched).read k s = Message.ofBody k <$> mode.readAs k.Body s) ∧
        ∀ v s, (mode.endpoint .dispatched).write (Message.ofBody k v) s = mode.writeAs v s) ∧
    (∀ (mode : Mode) (s : Session mode.Source mode.Sink) (routed : List (Route × Step)),
      let steps := routed.map Prod.snd
      s.runRouted routed = s.run (mode.endpoint .dispatched) steps ∧
        s.runRouted routed = s.run (mode.endpoint .direct) steps ∧
        List.Forall₂ Step.AnsweredInKind steps (s.runRouted routed).2) ∧
    ∀ (j k : Kind) (input : Bytes) (m n : Message),
      (Message.decode j input).result = .ok m → (Message.decode k input).result = .ok n →
        m.kind = j ∧ n.kind = k ∧ (m = n ↔ j = k) := by
  refine ⟨?_, ?_, ?_, ?_, ?_⟩
  · intro k v m
    have encoded : m.encode = Codec.encode v := Message.withCodec_ofBody k v Codec.encode
    have appended : m.put [] = Codec.encode v :=
      Message.withCodec_ofBody k v fun v => Codec.put v []
    refine ⟨Message.kind_ofBody k v, ?_, encoded, rfl, appended, rfl⟩
    rw [Message.encodedLength, Message.kind_ofBody, Kind.size_eq]
  · intro k input
    exact ⟨k.dispatch_eq fun α => Codec.decode α input, rfl⟩
  · intro mode k
    exact ⟨mode.read_dispatched k, mode.write_dispatched k⟩
  · intro mode s routed steps
    refine ⟨Session.runRouted_eq .dispatched s routed, Session.runRouted_eq .direct s routed, ?_⟩
    rw [Session.runRouted_eq .direct]
    exact Session.run_in_kind .direct s steps
  · intro j k input m n decoded other
    obtain ⟨rfl, _⟩ := Message.decode_eq_ok_iff.mp decoded
    obtain ⟨rfl, _⟩ := Message.decode_eq_ok_iff.mp other
    refine ⟨rfl, rfl, ?_⟩
    constructor
    · rintro rfl
      rfl
    · intro same
      rw [same, other] at decoded
      cases decoded
      rfl

theorem routes_indistinguishable_four_bytes :
    let input : Bytes := [0, 0, 0, 3]
    let m : Message := .clientFlags ⟨3⟩
    let n : Message := .word (.w32 3)
    (Message.decode .clientFlags input).result = .ok m ∧
      (Message.decode (.word .w32) input).result = .ok n ∧ m ≠ n := by
  intro input m n
  have decoded : (Message.decode .clientFlags input).result = .ok m := by decide +kernel
  have other : (Message.decode (.word .w32) input).result = .ok n := by decide +kernel
  obtain ⟨_, _, same_iff⟩ := routes_indistinguishable.2.2.2.2 _ _ input m n decoded other
  refine ⟨decoded, other, ?_⟩
  intro same
  cases same_iff.mp same

end Nbd
