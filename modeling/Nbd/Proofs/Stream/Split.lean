import Nbd.Proofs.Stream.Fill

/-! # Collecting in parts

Collecting `m + n` bytes at once is collecting `m` bytes and then `n` more from what that
leaves: the same bytes arrive, the same shortfall ends the loop, and exactly the same script
is left, wherever in the script the cut falls.
-/

namespace Nbd

open Source (push)

/-- What a loop collects for a caller who already holds `front`. -/
def Shortfall.after (front : Bytes) : Except Shortfall Bytes → Except Shortfall Bytes
  | .ok bytes => .ok (front ++ bytes)
  | .error (.endOfStream arrived) => .error (.endOfStream (front.length + arrived))
  | .error (.fault f) => .error (.fault f)

namespace Suspending

variable {width middle : Nat} {filled : Bytes} {s : PollSource}

/-- It makes no difference to take a part of a chunk first. -/
theorem fill_part {chunk : Chunk} {n : Nat} (missing : filled.length < width)
    (part : n < chunk.bytes.length) (within : filled.length + n ≤ width) :
    fill width filled (.ready (.data chunk) :: s) =
      fill width (filled ++ chunk.bytes.take n)
        ((push (chunk.bytes.drop n) []).map .ready ++ s) := by
  have held : (filled ++ chunk.bytes.take n).length = filled.length + n := by
    rw [List.length_append, List.length_take, Nat.min_eq_left (Nat.le_of_lt part)]
  obtain full | short := Nat.eq_or_lt_of_le within
  · have all : width - filled.length = n := by omega
    rw [fill_data missing, all]
  · -- the rest of the chunk is a chunk of its own, of which the second call takes its share
    cases remains : chunk.bytes.drop n with
    | nil =>
      rw [List.drop_eq_nil_iff] at remains
      omega
    | cons b bs =>
      have split : width - filled.length = n + (width - (filled.length + n)) := by omega
      change _ = fill width _ (.ready (.data ⟨b, bs⟩) :: s)
      rw [fill_data missing, fill_data (held ▸ short), held, Chunk.bytes.eq_1 ⟨b, bs⟩, ← remains,
        List.append_assoc, ← List.take_add, List.drop_drop, ← split]

theorem fill_after_full (front : Bytes) (full : width ≤ filled.length) :
    fill (front.length + width) (front ++ filled) s =
      (Shortfall.after front (fill width filled s).1, (fill width filled s).2) := by
  have fullAll : front.length + width ≤ (front ++ filled).length := by
    rw [List.length_append]
    omega
  rw [fill_full full, fill_full fullAll]
  rfl

/-- Bytes held from before do not change what is collected behind them. -/
theorem fill_after (front : Bytes) :
    fill (front.length + width) (front ++ filled) s =
      (Shortfall.after front (fill width filled s).1, (fill width filled s).2) := by
  -- both loops make the same calls: each asks for what is missing, and that is the same
  have same (held : Bytes) :
      front.length + width - (front ++ held).length = width - held.length := by
    rw [List.length_append]
    omega
  have missingToo {held : Bytes} (missing : held.length < width) :
      (front ++ held).length < front.length + width := by
    rw [List.length_append]
    omega
  induction s generalizing filled with
  | nil =>
    by_cases missing : filled.length < width
    · rw [fill_nil missing, fill_nil (missingToo missing), List.length_append]
      rfl
    · exact fill_after_full front (Nat.le_of_not_lt missing)
  | cons item rest ih =>
    by_cases missing : filled.length < width
    · cases item with
      | pending => rw [fill_pending missing, fill_pending (missingToo missing), ih]
      | ready item =>
        cases item with
        | data chunk =>
          rw [fill_data missing, fill_data (missingToo missing), same, List.append_assoc]
          by_cases whole : chunk.bytes.length ≤ width - filled.length
          · rw [List.drop_eq_nil_of_le whole]
            exact ih
          · apply fill_after_full
            rw [List.length_append, List.length_take]
            omega
        | endOfStream =>
          rw [fill_endOfStream missing, fill_endOfStream (missingToo missing), List.length_append]
          rfl
        | fault fault =>
          rw [fill_fault missing, fill_fault (missingToo missing)]
          by_cases interrupted : fault.kind = .interrupted
          · rw [if_pos interrupted, if_pos interrupted, ih]
          · rw [if_neg interrupted, if_neg interrupted]
            rfl
    · exact fill_after_full front (Nat.le_of_not_lt missing)

/-- The loop can be stopped on its way and taken up again. -/
theorem fill_resume (held : filled.length ≤ middle) (within : middle ≤ width) :
    fill width filled s = match fill middle filled s with
      | (.ok front, rest) => fill width front rest
      | (.error short, rest) => (.error short, rest) := by
  induction s generalizing filled with
  | nil =>
    obtain full | missing := Nat.eq_or_lt_of_le held
    · rw [fill_full (Nat.le_of_eq full.symm)]
    · rw [fill_nil missing, fill_nil (Nat.lt_of_lt_of_le missing within)]
  | cons item rest ih =>
    obtain full | missing := Nat.eq_or_lt_of_le held
    · rw [fill_full (Nat.le_of_eq full.symm)]
    have missingAll : filled.length < width := Nat.lt_of_lt_of_le missing within
    cases item with
    | pending =>
      rw [fill_pending missing, fill_pending missingAll]
      exact ih held
    | ready item =>
      cases item with
      | data chunk =>
        by_cases whole : chunk.bytes.length ≤ middle - filled.length
        · have wholeAll : chunk.bytes.length ≤ width - filled.length := by omega
          have fits : (filled ++ chunk.bytes).length ≤ middle := by
            rw [List.length_append]
            omega
          rw [fill_data missing, fill_data missingAll, List.take_of_length_le whole,
            List.drop_eq_nil_of_le whole, List.take_of_length_le wholeAll,
            List.drop_eq_nil_of_le wholeAll]
          exact ih fits
        · -- the stop falls inside the chunk
          have part : middle - filled.length < chunk.bytes.length := Nat.lt_of_not_le whole
          have full : middle ≤
              (filled ++ chunk.bytes.take (middle - filled.length)).length := by
            rw [List.length_append, List.length_take]
            omega
          rw [fill_part missingAll part (by omega), fill_data missing, fill_full full]
      | endOfStream => rw [fill_endOfStream missing, fill_endOfStream missingAll]
      | fault fault =>
        rw [fill_fault missing, fill_fault missingAll]
        by_cases interrupted : fault.kind = .interrupted
        · rw [if_pos interrupted, if_pos interrupted]
          exact ih held
        · rw [if_neg interrupted, if_neg interrupted]

end Suspending

/-! ## Two parts, in either loop -/

theorem Blocking.collected_cases (width : Nat) (s : Source) :
    (∃ bytes, collected width [] s = .ok bytes ∧ bytes.length = width) ∨
      (∃ arrived, arrived < width ∧ collected width [] s = .error (.endOfStream arrived)) ∨
      ∃ fault, collected width [] s = .error (.fault fault) := by
  rw [collected]
  by_cases enough : width ≤ s.flow.length
  · left
    rw [if_pos enough]
    exact ⟨_, rfl, by rw [List.nil_append, List.length_take, Nat.min_eq_left enough]⟩
  · right
    rw [if_neg enough, List.length_nil, Nat.zero_add]
    cases s.fault? with
    | none => exact .inl ⟨_, Nat.lt_of_not_le enough, rfl⟩
    | some fault => exact .inr ⟨fault, rfl⟩

namespace Suspending

variable {m : Nat} {s rest : PollSource}

theorem length_of_fill_ok {front : Bytes} (first : fill m [] s = (.ok front, rest)) :
    front.length = m := by
  have settles := fill_settled.symm.trans (Blocking.fill_start m (Poll.settled s))
  rw [first, Prod.mk.injEq] at settles
  obtain ⟨bytes, got, length⟩ | ⟨_, _, got⟩ | ⟨_, got⟩ :=
    Blocking.collected_cases m (Poll.settled s)
  · cases settles.1.trans got
    exact length
  · cases settles.1.trans got
  · cases settles.1.trans got

theorem fill_add_of_ok {front : Bytes} (first : fill m [] s = (.ok front, rest)) (n : Nat) :
    fill (m + n) [] s = (Shortfall.after front (fill n [] rest).1, (fill n [] rest).2) := by
  have length : front.length = m := length_of_fill_ok first
  have later : fill (front.length + n) (front ++ []) rest = _ := fill_after front
  rw [List.append_nil, length] at later
  rw [fill_resume m.zero_le (Nat.le_add_right m n), first]
  exact later

theorem fill_add_of_error {short : Shortfall} (first : fill m [] s = (.error short, rest))
    (n : Nat) : fill (m + n) [] s = (.error short, rest) := by
  rw [fill_resume m.zero_le (Nat.le_add_right m n), first]

end Suspending

namespace Blocking

variable {m : Nat} {s rest : Source}

/-- A blocking loop does what a suspending one does that never has to wait. -/
theorem fill_ready (width : Nat) (s : Source) :
    let ready : PollSource := s.map .ready
    fill width [] s =
      ((Suspending.fill width [] ready).1, Poll.settled (Suspending.fill width [] ready).2) := by
  intro ready
  rw [← Suspending.fill_settled, Poll.settled_map_ready]

theorem fill_add_of_ok {front : Bytes} (first : fill m [] s = (.ok front, rest)) (n : Nat) :
    fill (m + n) [] s = (Shortfall.after front (fill n [] rest).1, (fill n [] rest).2) := by
  rw [fill_ready, Prod.mk.injEq] at first
  obtain ⟨got, rfl⟩ := first
  rw [fill_ready, Suspending.fill_add_of_ok (Prod.ext got rfl), Suspending.fill_settled]

theorem fill_add_of_error {short : Shortfall} (first : fill m [] s = (.error short, rest))
    (n : Nat) : fill (m + n) [] s = (.error short, rest) := by
  rw [fill_ready, Prod.mk.injEq] at first
  obtain ⟨got, rfl⟩ := first
  rw [fill_ready, Suspending.fill_add_of_error (Prod.ext got rfl)]

end Blocking

end Nbd
