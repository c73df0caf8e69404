import Nbd.Proofs.Stream.Mode

/-! # The byte ledger of a session

Whatever fails in a session, every byte is accounted for.  The data of the source is what
the reads took off it, in order, and then what is left; what the sink took is the messages
that were sent and a front part of each that failed.  A step after a failure starts right
behind the last byte that the failed one took.
-/

namespace Nbd

/-! ## One read -/

namespace Mode

variable {mode : Mode} (route : Route)

theorem contents_settled (s : mode.Source) :
    (mode.endpoint route).contents s = (mode.settled s).contents := by
  cases mode <;> cases route <;> rfl

end Mode

/-! ## One step -/

/-- What a call may have moved, by its outcome: the bytes it took off the source and those
    it gave to the sink. -/
inductive Step.Moves : Step → Step.Outcome → (consumed emitted : Bytes) → Prop where
  | received (m : Message) : Moves (.read m.kind) (.received m) m.encode []
  | ended {k : Kind} {lost : Bytes} : lost.length < k.size →
      Moves (.read k) (.failed (.truncated k.size lost.length)) lost []
  | broken {k : Kind} {lost : Bytes} (fault : Fault) : lost.length < k.size →
      Moves (.read k) (.failed (.source fault)) lost []
  | sent (m : Message) : Moves (.write m) .sent [] m.encode
  | torn {m : Message} {n : Nat} (fault : Fault) : n < m.encode.length →
      Moves (.write m) (.failed (.sink fault)) [] (m.encode.take n)

namespace Session

/-- One line of the ledger. -/
structure Entry where
  step : Step
  outcome : Step.Outcome
  /-- The data in front of the source that is gone from it after the step. -/
  consumed : Bytes
  /-- What the sink took during the step. -/
  emitted : Bytes

variable {σ τ : Type}

def entry (e : Endpoint σ τ) (s : Session σ τ) (step : Step) : Entry :=
  let data := e.contents s.source
  let report := (s.step e step).2
  ⟨step, report.outcome, data.take (data.length - report.left), report.wrote⟩

/-- The entries of a run, each made where the step before it stopped. -/
def ledger (e : Endpoint σ τ) (s : Session σ τ) : List Step → List Entry
  | [] => []
  | step :: steps => s.entry e step :: (s.step e step).1.ledger e steps

theorem ledger_steps (e : Endpoint σ τ) (s : Session σ τ) (steps : List Step) :
    (s.ledger e steps).map Entry.step = steps := by
  induction steps generalizing s with
  | nil => rfl
  | cons step steps ih => exact congrArg (step :: ·) (ih _)

theorem ledger_outcomes (e : Endpoint σ τ) (s : Session σ τ) (steps : List Step) :
    (s.ledger e steps).map Entry.outcome = (s.run e steps).2.map Step.Report.outcome := by
  induction steps generalizing s with
  | nil => rfl
  | cons step steps ih => exact congrArg (_ :: ·) (ih _)

theorem ledger_emitted (e : Endpoint σ τ) (s : Session σ τ) (steps : List Step) :
    (s.run e steps).2.flatMap Step.Report.wrote = (s.ledger e steps).flatMap Entry.emitted := by
  induction steps generalizing s with
  | nil => rfl
  | cons step steps ih => exact congrArg (_ ++ ·) (ih _)

theorem ledger_take (e : Endpoint σ τ) (s : Session σ τ) (steps : List Step) (n : Nat) :
    (s.ledger e steps).take n = s.ledger e (steps.take n) := by
  induction steps generalizing s n with
  | nil => rw [List.take_nil, ledger, List.take_nil]
  | cons step steps ih =>
    cases n with
    | zero => rfl
    | succ n => exact congrArg (_ :: ·) (ih _ n)

variable {mode : Mode} (route : Route) (s : Session mode.Source mode.Sink)

theorem read_moves (k : Kind) :
    let e := mode.endpoint route
    let after := s.read e k
    ∃ consumed, (Step.read k).Moves after.2.outcome consumed after.2.wrote ∧
      e.contents s.source = consumed ++ e.contents after.1.source ∧
      after.2.left = (e.contents after.1.source).length := by
  intro e after
  -- on failure as well: the loop then took all data up to the point where it stopped
  have left := Source.contents_skip k.size (mode.settled s.source)
  rw [← (Mode.read_settled route k s.source).2, ← Mode.contents_settled route,
    ← Mode.contents_settled route] at left
  refine ⟨(mode.settled s.source).flow.take k.size, ?_⟩
  obtain ⟨m, rfl, got, spelled⟩ | ⟨short, failed⟩ := Mode.read_cases route k s.source
  · rw [spelled] at left ⊢
    simp only [after, read, e, got]
    exact ⟨.received m, left, trivial⟩
  · have all : (mode.settled s.source).flow.take k.size = (mode.settled s.source).flow :=
      List.take_of_length_le (Nat.le_of_lt short)
    rw [all] at left ⊢
    obtain ended | ⟨fault, broken⟩ := failed
    · simp only [after, read, e, ended]
      exact ⟨.ended short, left, trivial⟩
    · simp only [after, read, e, broken, Answer.quiet]
      exact ⟨.broken fault short, left, trivial⟩

theorem write_moves (m : Message) :
    let e := mode.endpoint route
    let after := s.write e m
    (Step.write m).Moves after.2.outcome [] after.2.wrote ∧ after.1.source = s.source ∧
      after.2.left = (e.contents s.source).length := by
  intro e after
  have takes : ((mode.endpoint route).write m s.sink).Takes m := Mode.write_takes route m s.sink
  obtain ⟨done, all⟩ | ⟨fault, n, failed, less, front⟩ := takes
  · simp only [after, write, e, done, all]
    exact ⟨.sent m, trivial, trivial⟩
  · rw [← m.length_encode] at less
    simp only [after, write, e, failed, front]
    exact ⟨.torn fault less, trivial, trivial⟩

/-- An entry is as its outcome allows, and what it consumed stood right in front of what the
    step left. -/
theorem entry_balances {step : Step} (call : (∃ k, step = .read k) ∨ ∃ m, step = .write m) :
    let e := mode.endpoint route
    let line := s.entry e step
    line.step.Moves line.outcome line.consumed line.emitted ∧
      e.contents s.source = line.consumed ++ e.contents (s.step e step).1.source := by
  intro e line
  obtain ⟨consumed, moves, stood, left⟩ : ∃ consumed,
      step.Moves (s.step e step).2.outcome consumed (s.step e step).2.wrote ∧
        e.contents s.source = consumed ++ e.contents (s.step e step).1.source ∧
        (s.step e step).2.left = (e.contents (s.step e step).1.source).length := by
    obtain ⟨k, rfl⟩ | ⟨m, rfl⟩ := call
    · exact read_moves route s k
    · obtain ⟨moves, kept, left⟩ := write_moves route s m
      have same : (s.step e (.write m)).1.source = s.source := kept
      rw [same]
      exact ⟨[], moves, rfl, left⟩
  have exactly : line.consumed = consumed := by
    change (e.contents s.source).take ((e.contents s.source).length - (s.step e step).2.left) = _
    rw [stood, left, List.length_append, Nat.add_sub_cancel, List.take_left]
  rw [exactly]
  exact ⟨moves, stood⟩

/-! ## Whole sessions -/

variable {steps : List Step}

theorem ledger_moves (calls : ∀ step ∈ steps, (∃ k, step = .read k) ∨ ∃ m, step = .write m) :
    ∀ line ∈ s.ledger (mode.endpoint route) steps,
      line.step.Moves line.outcome line.consumed line.emitted := by
  induction steps generalizing s with
  | nil =>
    intro line listed
    cases listed
  | cons step steps ih =>
    obtain ⟨call, calls⟩ := List.forall_mem_cons.mp calls
    exact List.forall_mem_cons.mpr ⟨(entry_balances route s call).1, ih _ calls⟩

theorem ledger_consumed
    (calls : ∀ step ∈ steps, (∃ k, step = .read k) ∨ ∃ m, step = .write m) :
    let e := mode.endpoint route
    e.contents s.source =
      (s.ledger e steps).flatMap Entry.consumed ++ e.contents (s.run e steps).1.source := by
  intro e
  -- the session is any, since a failed step leaves one like any other: what it did not take
  -- is the data of the steps after it
  induction steps generalizing s with
  | nil => rfl
  | cons step steps ih =>
    obtain ⟨call, calls⟩ := List.forall_mem_cons.mp calls
    obtain ⟨_, stood⟩ := entry_balances route s call
    calc e.contents s.source
        = (s.entry e step).consumed ++ e.contents (s.step e step).1.source := stood
      _ = (s.entry e step).consumed ++ (((s.step e step).1.ledger e steps).flatMap Entry.consumed ++
            e.contents ((s.step e step).1.run e steps).1.source) := by rw [← ih _ calls]
      _ = _ := (List.append_assoc ..).symm

/-- However many of its calls fail, a session takes the data of its source in order, leaving
    none out and taking none twice, and has given its sink what its entries say, whenever it
    is looked at. -/
theorem ledger_balances (mode : Mode) (route : Route) (s : Session mode.Source mode.Sink)
    (steps : List Step)
    (calls : ∀ step ∈ steps, (∃ k, step = .read k) ∨ ∃ m, step = .write m) :
    let e := mode.endpoint route
    let ledger := s.ledger e steps
    ledger.map Entry.step = steps ∧
      ledger.map Entry.outcome = (s.run e steps).2.map Step.Report.outcome ∧
      (∀ line ∈ ledger, line.step.Moves line.outcome line.consumed line.emitted) ∧
      ∀ n, let reached := s.run e (steps.take n)
        e.contents s.source =
            (ledger.take n).flatMap Entry.consumed ++ e.contents reached.1.source ∧
          reached.2.flatMap Step.Report.wrote = (ledger.take n).flatMap Entry.emitted := by
  intro e ledger
  refine ⟨ledger_steps e s steps, ledger_outcomes e s steps, ledger_moves route s calls, ?_⟩
  intro n reached
  have callsTaken : ∀ step ∈ steps.take n, (∃ k, step = .read k) ∨ ∃ m, step = .write m := by
    intro step listed
    exact calls step (List.mem_of_mem_take listed)
  rw [ledger_take]
  exact ⟨ledger_consumed route s callsTaken, ledger_emitted e s (steps.take n)⟩

theorem ledger_balances_broken :
    let reset : Fault := ⟨⟨"ConnectionReset"⟩, "reset"⟩
    let steps : List Step := [.read .reply, .write (.word (.w16 0x0908)), .read (.word .w16),
      .read (.word .w16), .write (.word (.w32 0x01020304))]
    let s : Session PollSource PollSink := {
      source := [.pending, .ready (.data ⟨1, []⟩), .ready (.fault ⟨.interrupted, "signal"⟩),
        .ready (.data ⟨2, [3]⟩), .ready .endOfStream, .ready (.data ⟨4, []⟩), .pending,
        .ready (.fault reset), .ready (.data ⟨5, [6, 7]⟩)]
      sink := [.ready (.accept 1), .pending, .ready (.accept 0), .ready (.accept 3)] }
    let e := Mode.suspending.endpoint .dispatched
    let ledger := s.ledger e steps
    (∀ step ∈ steps, (∃ k, step = .read k) ∨ ∃ m, step = .write m) ∧
      ledger.map Entry.outcome = [.failed (.truncated 16 3), .failed (.sink Suspending.noProgress),
        .failed (.source reset), .received (.word (.w16 0x0506)), .sent] ∧
      ledger.map Entry.consumed = [[1, 2, 3], [], [4], [5, 6], []] ∧
      ledger.map Entry.emitted = [[], [9], [], [], [1, 2, 3, 4]] ∧
      (∀ line ∈ ledger, line.step.Moves line.outcome line.consumed line.emitted) ∧
      e.contents s.source =
        (ledger.take 3).flatMap Entry.consumed ++ e.contents (s.run e (steps.take 3)).1.source := by
  intro reset steps s e ledger
  have calls : ∀ step ∈ steps, (∃ k, step = .read k) ∨ ∃ m, step = .write m := by
    simp [steps]
  obtain ⟨_, _, moves, stand⟩ := ledger_balances .suspending .dispatched s steps calls
  exact ⟨calls, by decide +kernel, by decide +kernel, by decide +kernel, moves, (stand 3).1⟩

end Session

end Nbd
