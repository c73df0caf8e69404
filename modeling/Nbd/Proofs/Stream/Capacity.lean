import Nbd.Proofs.Stream.Mode

/-! # What a sink takes before it fails

A write goes past calls that take something and past interruptions; it fails at any other item.
Said of the script itself, with no loop in it: if the calls in front of the first failing one
take enough for the message, the script is used up to the call that takes the last byte; if they
do not, the write fails as that call does, with exactly what the calls before it took
(`Blocking.write_specified`).
-/

namespace Nbd

/-! ## Single calls -/

namespace SinkItem

/-- How many bytes a call that ends like this takes at most. -/
def room : SinkItem → Nat
  | .accept limit => limit
  | .fault _ => 0

instance : DecidablePred Steady
  | .accept limit => inferInstanceAs (Decidable (0 < limit))
  | .fault f => inferInstanceAs (Decidable (f.kind = .interrupted))

/-- A write that still has bytes to send fails at this item, with this fault. -/
inductive Fatal : SinkItem → Fault → Prop where
  | refusal : Fatal (.accept 0) Blocking.noProgress
  | fault {fault : Fault} : fault.kind ≠ .interrupted → Fatal (.fault fault) fault

theorem exists_fatal {item : SinkItem} (unsteady : ¬ item.Steady) : ∃ fault, item.Fatal fault := by
  cases item with
  | accept limit =>
    obtain rfl : limit = 0 := Nat.eq_zero_of_not_pos unsteady
    exact ⟨_, .refusal⟩
  | fault fault => exact ⟨fault, .fault unsteady⟩

end SinkItem

theorem Blocking.drain_fatal {unsent : Bytes} (left : unsent ≠ []) {item : SinkItem}
    {fault : Fault} (fatal : item.Fatal fault) (s : Sink) :
    drain unsent (item :: s) = ⟨.error fault, [], s⟩ := by
  cases fatal with
  | refusal => exact drain_refused left
  | fault kind => rw [drain_fault left, if_neg kind]

namespace Sink

/-! ## Before and after the first failing call -/

/-- How many bytes the calls of a script take at most. -/
def capacity (s : Sink) : Nat := (s.map SinkItem.room).sum

/-- The items in front of the first one at which a write fails. -/
def passed (s : Sink) : Sink := s.takeWhile fun item => decide item.Steady

/-- The script from the first item at which a write fails; nothing is left if there is none. -/
def stopped (s : Sink) : Sink := s.dropWhile fun item => decide item.Steady

@[simp] theorem capacity_cons (item : SinkItem) (s : Sink) :
    capacity (item :: s) = item.room + capacity s := by
  simp only [capacity, List.map_cons, List.sum_cons]

theorem passed_append_stopped (s : Sink) : s.passed ++ s.stopped = s :=
  List.takeWhile_append_dropWhile

theorem steady_passed (s : Sink) : s.passed.Steady := fun item listed =>
  of_decide_eq_true (List.all_eq_true.mp List.all_takeWhile item listed)

theorem stopped_cases (s : Sink) :
    s.stopped = [] ∨ ∃ item fault after, item.Fatal fault ∧ s.stopped = item :: after := by
  cases found : s.stopped with
  | nil => exact .inl rfl
  | cons item after =>
    have first := List.head?_dropWhile_not (fun item : SinkItem => decide item.Steady) s
    rw [← stopped, found] at first
    obtain ⟨fault, fatal⟩ := SinkItem.exists_fatal (of_decide_eq_false first)
    exact .inr ⟨item, fault, after, fatal, rfl⟩

end Sink

/-! ## Going past calls -/

theorem Written.after_after {τ : Type} (w : Written τ) (first second : Bytes) :
    (w.after second).after first = w.after (first ++ second) := by
  simp only [Written.after, List.append_assoc]

/-- Calls that do not fail take what they have room for, as long as that is not everything. -/
theorem Blocking.drain_append {front : Sink} (steady : front.Steady) (s : Sink) {unsent : Bytes}
    (more : front.capacity < unsent.length) :
    drain unsent (front ++ s) =
      (drain (unsent.drop front.capacity) s).after (unsent.take front.capacity) := by
  -- bytes are left after every call, so each item in front is really met
  induction front generalizing unsent with
  | nil => rfl
  | cons item front ih =>
    obtain ⟨first, later⟩ := List.forall_mem_cons.mp steady
    rw [Sink.capacity_cons] at more ⊢
    have left : unsent ≠ [] := List.ne_nil_of_length_pos (by omega)
    rw [List.cons_append]
    cases item with
    | accept limit =>
      obtain ⟨n, rfl⟩ := Nat.exists_eq_add_one_of_ne_zero (Nat.ne_of_gt first)
      simp only [SinkItem.room] at more ⊢
      have others : Sink.capacity front < (unsent.drop (n + 1)).length := by
        rw [List.length_drop]
        omega
      rw [drain_accept left, ih later others, Written.after_after, List.drop_drop, ← List.take_add]
    | fault fault =>
      have interrupted : fault.kind = .interrupted := first
      simp only [SinkItem.room, Nat.zero_add] at more ⊢
      rw [drain_fault left, if_pos interrupted]
      exact ih later more

/-! ## The call that takes the last byte -/

namespace Sink

/-- A script, and what stands in it behind the call at which the calls have taken `n` bytes. -/
inductive Filled (n : Nat) : Sink → Sink → Prop where
  | lastCall (front : Sink) (limit : Nat) (after : Sink) :
    front.Steady → front.capacity < n → n ≤ front.capacity + limit →
    Filled n (front ++ .accept limit :: after) after

theorem Filled.behind {n : Nat} {s rest : Sink} (filled : s.Filled n rest) {item : SinkItem}
    (steady : item.Steady) : Filled (item.room + n) (item :: s) rest := by
  obtain ⟨front, limit, _, steadyFront, before, reached⟩ := filled
  have steadyAll : Sink.Steady (item :: front) := List.forall_mem_cons.mpr ⟨steady, steadyFront⟩
  have total : capacity (item :: front) = item.room + front.capacity := capacity_cons item front
  exact .lastCall (item :: front) limit rest steadyAll (by omega) (by omega)

theorem exists_filled {n : Nat} (asked : 0 < n) {front : Sink} (steady : front.Steady)
    (enough : n ≤ front.capacity) (s : Sink) : ∃ rest, Filled n (front ++ s) rest := by
  induction front generalizing n with
  | nil => exact absurd enough (Nat.not_le_of_lt asked)
  | cons item front ih =>
    obtain ⟨first, later⟩ := List.forall_mem_cons.mp steady
    rw [capacity_cons] at enough
    by_cases within : n ≤ item.room
    · -- an interruption takes nothing, so the call that reaches `n` takes something
      cases item with
      | accept limit =>
        have none : Sink.Steady [] := List.forall_mem_nil _
        exact ⟨_, .lastCall [] limit (front ++ s) none asked (Nat.le_add_left_of_le within)⟩
      | fault fault => exact absurd within (Nat.not_le_of_lt asked)
    · obtain ⟨rest, filled⟩ := ih (n := n - item.room) (by omega) later (by omega)
      have behind := filled.behind first
      rw [Nat.add_sub_cancel' (Nat.le_of_not_le within)] at behind
      exact ⟨rest, behind⟩

end Sink

namespace Blocking

variable {unsent : Bytes} {s : Sink}

theorem drain_filled {rest : Sink} (filled : s.Filled unsent.length rest) :
    drain unsent s = ⟨.ok (), unsent, rest⟩ := by
  obtain ⟨front, limit, _, steady, before, reached⟩ := filled
  have left : unsent.drop front.capacity ≠ [] :=
    mt List.drop_eq_nil_iff.mp (Nat.not_le_of_lt before)
  have all : (unsent.drop front.capacity).length ≤ limit := by
    rw [List.length_drop]
    omega
  obtain ⟨n, rfl⟩ := Nat.exists_eq_add_one_of_ne_zero (show limit ≠ 0 by omega)
  rw [drain_append steady _ before, drain_accept left, List.take_of_length_le all,
    List.drop_eq_nil_of_le all, drain_nothing, Written.after_after, Written.after,
    List.append_nil, List.take_append_drop]

/-- A script without failing calls that is too short for the bytes is used up, and what it leaves
    is taken after its end. -/
theorem drain_short (steady : s.Steady) (short : s.capacity < unsent.length) :
    drain unsent s = ⟨.ok (), unsent, []⟩ := by
  have past := drain_append steady [] short
  rw [List.append_nil] at past
  rw [past, drain_nil, Written.after, List.take_append_drop]

theorem drain_stuck {front : Sink} (steady : front.Steady) {item : SinkItem} {fault : Fault}
    (fatal : item.Fatal fault) (short : front.capacity < unsent.length) :
    drain unsent (front ++ item :: s) = ⟨.error fault, unsent.take front.capacity, s⟩ := by
  have left : unsent.drop front.capacity ≠ [] :=
    mt List.drop_eq_nil_iff.mp (Nat.not_le_of_lt short)
  rw [drain_append steady _ short, drain_fatal left fatal, Written.after, List.append_nil]

/-! ## Writes -/

/-- Every way a write of a message can end, what the sink has taken by then and what is left of
    its script. -/
theorem write_specified (route : Route) (m : Message) (s : Sink) :
    let room := s.passed.capacity
    let outcome := (endpoint route).write m s
    m.encode.length = m.kind.size ∧
      ((m.kind.size ≤ room ∧ s.Filled m.kind.size outcome.rest ∧ outcome.taken = m.encode ∧
          outcome.toAnswer = ⟨.ok (), [.wrote m.kind.codecName m.kind.size]⟩) ∨
        (room < m.kind.size ∧ s.stopped = [] ∧ outcome.rest = [] ∧ outcome.taken = m.encode ∧
          outcome.toAnswer = ⟨.ok (), [.wrote m.kind.codecName m.kind.size]⟩) ∨
        (room < m.kind.size ∧ ∃ item fault after, s.stopped = item :: after ∧ item.Fatal fault ∧
          outcome.rest = after ∧ outcome.taken = m.encode.take room ∧
          outcome.toAnswer = .quiet (.error (.sink fault)))) := by
  intro room outcome
  have written : outcome = m.delivered (drain m.encode s) := write_eq route m s
  refine ⟨m.length_encode, ?_⟩
  by_cases enough : m.kind.size ≤ room
  · obtain ⟨rest, filled⟩ := Sink.exists_filled m.kind.size_pos s.steady_passed enough s.stopped
    rw [s.passed_append_stopped] at filled
    have drained := drain_filled (m.length_encode.symm ▸ filled)
    rw [written, drained]
    exact .inl ⟨enough, filled, rfl, m.delivered_ok rfl⟩
  · have short : room < m.kind.size := Nat.lt_of_not_le enough
    have shortBytes : s.passed.capacity < m.encode.length := by rwa [m.length_encode]
    obtain none | ⟨item, fault, after, fatal, found⟩ := s.stopped_cases
    · have whole : s.passed = s := by
        have split := s.passed_append_stopped
        rwa [none, List.append_nil] at split
      have drained := drain_short s.steady_passed shortBytes
      rw [whole] at drained
      rw [written, drained]
      exact .inr (.inl ⟨short, none, rfl, rfl, m.delivered_ok rfl⟩)
    · have drained := drain_stuck (s := after) s.steady_passed fatal shortBytes
      rw [← found, s.passed_append_stopped] at drained
      rw [written, drained]
      exact .inr (.inr ⟨short, item, fault, after, found, fatal, rfl, rfl, m.delivered_error rfl⟩)

end Blocking

end Nbd
