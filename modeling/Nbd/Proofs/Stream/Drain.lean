import Nbd.Stream.Blocking
import Nbd.Stream.Suspending

/-! # Emptying bytes into a sink

What the two loops that send the bytes of a message do, again by one equation for
each item that can stand in front of a sink.  Whatever the sink, it takes the bytes
in order and from the front: all of them if the loop succeeds, and fewer if it fails
(`Blocking.drain_taken`).  A suspending loop sends what the blocking one sends to the
sink without its suspensions, and ends as it does (`Suspending.drain_settled`).
-/

namespace Nbd

namespace Blocking

variable {unsent : Bytes} {s : Sink} {fault : Fault}

/-! ## Equations of the blocking loop -/

@[simp] theorem drain_nothing : drain [] s = ⟨.ok (), [], s⟩ := by
  rw [drain]
  rfl

theorem drain_taking {rest : Sink} {n : Nat} (left : unsent ≠ [])
    (called : s.call unsent.length = (.ok (n + 1), rest)) :
    drain unsent s = (drain (unsent.drop (n + 1)) rest).after (unsent.take (n + 1)) := by
  rw [drain, dif_pos (List.length_pos_iff.mpr left)]
  split
  · next refused => cases called.symm.trans refused
  · next taking =>
    cases called.symm.trans taking
    rfl
  · next failed => cases called.symm.trans failed

theorem drain_refusing {rest : Sink} (left : unsent ≠ [])
    (called : s.call unsent.length = (.ok 0, rest)) :
    drain unsent s = ⟨.error noProgress, [], rest⟩ := by
  rw [drain, dif_pos (List.length_pos_iff.mpr left)]
  split
  · next refused =>
    cases called.symm.trans refused
    rfl
  · next taking => cases called.symm.trans taking
  · next failed => cases called.symm.trans failed

theorem drain_failing {rest : Sink} (left : unsent ≠ [])
    (called : s.call unsent.length = (.error fault, rest)) :
    drain unsent s =
      if fault.kind = .interrupted then drain unsent rest else ⟨.error fault, [], rest⟩ := by
  rw [drain, dif_pos (List.length_pos_iff.mpr left)]
  split
  · next refused => cases called.symm.trans refused
  · next taking => cases called.symm.trans taking
  · next failed =>
    cases called.symm.trans failed
    rfl

/-! ## One equation for each item -/

theorem drain_refused (left : unsent ≠ []) :
    drain unsent (.accept 0 :: s) = ⟨.error noProgress, [], s⟩ :=
  drain_refusing left (by rw [Sink.call, SinkItem.answer, Nat.zero_min])

theorem drain_nil : drain unsent [] = ⟨.ok (), unsent, []⟩ := by
  cases unsent with
  | nil => exact drain_nothing
  | cons b bs =>
    have called : Sink.call (b :: bs).length [] = (.ok (bs.length + 1), []) := rfl
    rw [drain_taking (List.cons_ne_nil b bs) called]
    change (drain ((b :: bs).drop (b :: bs).length) []).after ((b :: bs).take (b :: bs).length) = _
    rw [List.drop_length, List.take_length, drain_nothing, Written.after, List.append_nil]

theorem drain_accept (left : unsent ≠ []) (limit : Nat) :
    drain unsent (.accept (limit + 1) :: s) =
      (drain (unsent.drop (limit + 1)) s).after (unsent.take (limit + 1)) := by
  have some : 0 < unsent.length := List.length_pos_iff.mpr left
  obtain ⟨n, taken⟩ := Nat.exists_eq_add_one_of_ne_zero
    (show min (limit + 1) unsent.length ≠ 0 by omega)
  have called : Sink.call unsent.length (.accept (limit + 1) :: s) = (.ok (n + 1), s) := by
    rw [Sink.call, SinkItem.answer, taken]
  -- a limit past the end takes no more than all there is
  rw [drain_taking left called, ← taken, ← List.take_eq_take_min, ← List.drop_eq_drop_min]

theorem drain_fault (left : unsent ≠ []) :
    drain unsent (.fault fault :: s) =
      if fault.kind = .interrupted then drain unsent s else ⟨.error fault, [], s⟩ :=
  drain_failing left rfl

end Blocking

/-! ## What the sink takes -/

/-- The sink took the bytes from the front: all of them if the write succeeded, and not
    all of them if it failed. -/
def Written.Takes {τ : Type} (w : Written τ) (bytes : Bytes) : Prop :=
  (w.result = .ok () ∧ w.taken = bytes) ∨
    ∃ fault n, w.result = .error fault ∧ n < bytes.length ∧ w.taken = bytes.take n

theorem Blocking.drain_takes (unsent : Bytes) (s : Sink) : (drain unsent s).Takes unsent := by
  induction s generalizing unsent with
  | nil =>
    rw [drain_nil]
    exact .inl ⟨rfl, rfl⟩
  | cons item rest ih =>
    -- with nothing left to send, the item in front is not even looked at
    by_cases left : unsent = []
    · subst left
      rw [drain_nothing]
      exact .inl ⟨rfl, rfl⟩
    have some : 0 < unsent.length := List.length_pos_iff.mpr left
    cases item with
    | accept limit =>
      cases limit with
      | zero =>
        rw [drain_refused left]
        exact .inr ⟨noProgress, 0, rfl, some, rfl⟩
      | succ limit =>
        rw [drain_accept left]
        obtain ⟨done, all⟩ | ⟨fault, n, failed, less, front⟩ := ih (unsent.drop (limit + 1))
        · refine .inl ⟨done, ?_⟩
          rw [Written.after, all, List.take_append_drop]
        · rw [List.length_drop] at less
          refine .inr ⟨fault, limit + 1 + n, failed, by omega, ?_⟩
          change unsent.take (limit + 1) ++ _ = _
          rw [front, ← List.take_add]
    | fault fault =>
      rw [drain_fault left]
      by_cases interrupted : fault.kind = .interrupted
      · rw [if_pos interrupted]
        exact ih unsent
      · rw [if_neg interrupted]
        exact .inr ⟨fault, 0, rfl, some, rfl⟩

/-! ## Sinks that keep going -/

/-- A call that ends like this takes something or is interrupted. -/
def SinkItem.Steady : SinkItem → Prop
  | .accept limit => 0 < limit
  | .fault f => f.kind = .interrupted

def Sink.Steady (s : Sink) : Prop := ∀ item ∈ s, item.Steady

theorem Blocking.drain_steady {s : Sink} (steady : s.Steady) (unsent : Bytes) :
    (drain unsent s).result = .ok () ∧ Sink.Steady (drain unsent s).rest := by
  induction s generalizing unsent with
  | nil =>
    rw [drain_nil]
    exact ⟨rfl, steady⟩
  | cons item rest ih =>
    obtain ⟨first, later⟩ := List.forall_mem_cons.mp steady
    by_cases left : unsent = []
    · subst left
      rw [drain_nothing]
      exact ⟨rfl, steady⟩
    cases item with
    | accept limit =>
      have some : limit ≠ 0 := Nat.ne_of_gt first
      obtain ⟨n, rfl⟩ := Nat.exists_eq_add_one_of_ne_zero some
      rw [drain_accept left]
      exact ih later _
    | fault fault =>
      have interrupted : fault.kind = .interrupted := first
      rw [drain_fault left, if_pos interrupted]
      exact ih later unsent

/-! ## The suspending loop -/

/-- A suspending write did what a blocking one did.  The two may only differ in how they
    word the fault of a sink that takes nothing. -/
structure Written.Agrees (suspending : Written PollSink) (blocking : Written Sink) : Prop where
  taken : suspending.taken = blocking.taken
  rest : Poll.settled suspending.rest = blocking.rest
  result : suspending.result = blocking.result ∨
    suspending.result = .error Suspending.noProgress ∧ blocking.result = .error Blocking.noProgress

theorem Written.Agrees.after {suspending : Written PollSink} {blocking : Written Sink}
    (agrees : suspending.Agrees blocking) (bytes : Bytes) :
    (suspending.after bytes).Agrees (blocking.after bytes) where
  taken := congrArg (bytes ++ ·) agrees.taken
  rest := agrees.rest
  result := agrees.result

theorem Written.Agrees.takes {suspending : Written PollSink} {blocking : Written Sink}
    (agrees : suspending.Agrees blocking) {bytes : Bytes} (takes : blocking.Takes bytes) :
    suspending.Takes bytes := by
  unfold Written.Takes at takes ⊢
  rw [agrees.taken]
  obtain same | ⟨worded, stuck⟩ := agrees.result
  · rwa [same]
  · obtain ⟨done, _⟩ | ⟨_, n, _, less, front⟩ := takes
    · cases stuck.symm.trans done
    · exact .inr ⟨_, n, worded, less, front⟩

theorem PollSink.settled_of_call_pending {offered : Nat} {s rest : PollSink}
    (called : s.call offered = (.pending, rest)) : Poll.settled rest = Poll.settled s := by
  cases s with
  | nil => cases called
  | cons item left =>
    cases item with
    | pending =>
      cases called
      rfl
    | ready item => cases called

theorem PollSink.call_settled_of_ready {offered : Nat} {s rest : PollSink}
    {answer : Except Fault Nat} (called : s.call offered = (.ready answer, rest)) :
    Sink.call offered (Poll.settled s) = (answer, Poll.settled rest) := by
  cases s with
  | nil =>
    cases called
    rfl
  | cons item left =>
    cases item with
    | pending => cases called
    | ready item =>
      cases called
      rfl

theorem Suspending.drain_settled (unsent : Bytes) (s : PollSink) :
    (drain unsent s).Agrees (Blocking.drain unsent (Poll.settled s)) := by
  -- one case for each way the suspending loop can go; a suspension is a step of it alone
  fun_induction drain unsent s with
  | case1 unsent s left rest called ih =>
    rw [← PollSink.settled_of_call_pending called]
    exact ih
  | case2 unsent s left rest called =>
    rw [Blocking.drain_refusing (List.length_pos_iff.mp left)
      (PollSink.call_settled_of_ready called)]
    exact ⟨rfl, rfl, .inr ⟨rfl, rfl⟩⟩
  | case3 unsent s left n rest called ih =>
    rw [Blocking.drain_taking (List.length_pos_iff.mp left)
      (PollSink.call_settled_of_ready called)]
    exact ih.after _
  | case4 unsent s left fault rest called interrupted ih =>
    rw [Blocking.drain_failing (List.length_pos_iff.mp left)
      (PollSink.call_settled_of_ready called), if_pos interrupted]
    exact ih
  | case5 unsent s left fault rest called stopping =>
    rw [Blocking.drain_failing (List.length_pos_iff.mp left)
      (PollSink.call_settled_of_ready called), if_neg stopping]
    exact ⟨rfl, rfl, .inl rfl⟩
  | case6 unsent s none =>
    obtain rfl : unsent = [] := List.length_eq_zero_iff.mp (by omega)
    rw [Blocking.drain_nothing]
    exact ⟨rfl, rfl, .inl rfl⟩

end Nbd
