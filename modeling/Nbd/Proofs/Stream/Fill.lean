import Nbd.Proofs.Stream.Flow
import Nbd.Stream.Blocking
import Nbd.Stream.Suspending

/-! # Collecting bytes

What the two loops that collect the bytes of a message do.  First their equations,
one for each item that can stand in front of a source; every later proof goes by
these and never opens a loop again.  Then `Blocking.fill_eq`, which says in terms of
the flow what is collected and what remains, and `Suspending.fill_settled`: the
suspending loop collects what the blocking one collects from the source without its
suspensions.
-/

namespace Nbd

open Source (push)

namespace Blocking

variable {width : Nat} {filled : Bytes} {s : Source} {fault : Fault}

/-! ## Equations of the blocking loop -/

theorem fill_full {σ : Type} [Readable σ (.ok [] : Except Fault Bytes)] {s : σ}
    (full : width ≤ filled.length) : fill width filled s = (.ok filled, s) := by
  rw [fill, dif_neg (by omega)]

theorem fill_nil (missing : filled.length < width) :
    fill width filled ([] : Source) = (.error (.endOfStream filled.length), []) := by
  rw [fill, dif_pos missing]
  rfl

theorem fill_endOfStream (missing : filled.length < width) :
    fill width filled (.endOfStream :: s) = (.error (.endOfStream filled.length), s) := by
  rw [fill, dif_pos missing]
  rfl

theorem fill_fault (missing : filled.length < width) :
    fill width filled (.fault fault :: s) =
      if fault.kind = .interrupted then fill width filled s else (.error (.fault fault), s) := by
  rw [fill, dif_pos missing]
  rfl

theorem fill_data (missing : filled.length < width) (chunk : Chunk) :
    fill width filled (.data chunk :: s) =
      fill width (filled ++ chunk.bytes.take (width - filled.length))
        (push (chunk.bytes.drop (width - filled.length)) s) := by
  rw [fill, dif_pos missing]
  -- with a positive number asked for, the call shows that it took the chunk's first byte
  obtain ⟨n, asked⟩ := Nat.exists_eq_add_one_of_ne_zero (Nat.sub_ne_zero_of_lt missing)
  rw [asked]
  rfl

/-! ## What the blocking loop collects -/

/-- Why a flow of `arrived` bytes fell short. -/
def shortfall (arrived : Nat) : Option Fault → Shortfall
  | some fault => .fault fault
  | none => .endOfStream arrived

/-- How the loop ends that has collected `filled` and needs `missing` more bytes. -/
def collected (missing : Nat) (filled : Bytes) (s : Source) : Except Shortfall Bytes :=
  if missing ≤ s.flow.length then .ok (filled ++ s.flow.take missing)
  else .error (shortfall (filled.length + s.flow.length) s.fault?)

@[simp] theorem collected_zero : collected 0 filled s = .ok filled := by
  simp [collected]

theorem collected_dry {missing : Nat} (asked : 0 < missing) (dry : s.flow = []) :
    collected missing filled s = .error (shortfall filled.length s.fault?) := by
  rw [collected, dry, List.length_nil, if_neg (Nat.not_le_of_lt asked), Nat.add_zero]

theorem collected_append {missing : Nat} {front : Bytes} {t : Source}
    (within : front.length ≤ missing) (flow : t.flow = front ++ s.flow)
    (stopped : t.fault? = s.fault?) :
    collected missing filled t = collected (missing - front.length) (filled ++ front) s := by
  simp only [collected, flow, stopped, List.length_append]
  by_cases enough : missing ≤ front.length + s.flow.length
  · rw [if_pos enough, if_pos (by omega), List.take_append, List.take_of_length_le within,
      List.append_assoc]
  · rw [if_neg enough, if_neg (by omega), Nat.add_assoc]

/-- The loop collects from the flow and leaves what a single call of that length
    would leave. -/
theorem fill_eq (within : filled.length ≤ width) :
    fill width filled s =
      (collected (width - filled.length) filled s, s.skip (width - filled.length)) := by
  -- on the script; a chunk longer than what is missing ends the loop and needs no hypothesis
  induction s generalizing filled with
  | nil =>
    obtain full | missing := Nat.eq_or_lt_of_le within
    · rw [fill_full (Nat.le_of_eq full.symm), full, Nat.sub_self, collected_zero, Source.skip_zero]
    obtain ⟨n, asked⟩ := Nat.exists_eq_add_one_of_ne_zero (Nat.sub_ne_zero_of_lt missing)
    rw [fill_nil missing, asked, collected_dry n.succ_pos rfl]
    rfl
  | cons item rest ih =>
    obtain full | missing := Nat.eq_or_lt_of_le within
    · rw [fill_full (Nat.le_of_eq full.symm), full, Nat.sub_self, collected_zero, Source.skip_zero]
    obtain ⟨n, asked⟩ := Nat.exists_eq_add_one_of_ne_zero (Nat.sub_ne_zero_of_lt missing)
    cases item with
    | data chunk =>
      rw [fill_data missing, asked]
      by_cases whole : chunk.bytes.length ≤ n + 1
      · have moved : collected (n + 1) filled (.data chunk :: rest) =
            collected (n + 1 - chunk.bytes.length) (filled ++ chunk.bytes) rest :=
          collected_append whole rfl rfl
        have fits : (filled ++ chunk.bytes).length ≤ width := by
          rw [List.length_append]
          omega
        rw [List.take_of_length_le whole, List.drop_eq_nil_of_le whole, push, ih fits, moved,
          Source.skip_data_within whole, List.length_append, ← Nat.sub_sub, asked]
      · have beyond : n + 1 < chunk.bytes.length := by omega
        have full : width ≤ (filled ++ chunk.bytes.take (n + 1)).length := by
          rw [List.length_append, List.length_take]
          omega
        have enough : n + 1 ≤ (Source.flow (.data chunk :: rest)).length := by
          rw [Source.flow, List.length_append]
          omega
        rw [fill_full full, Source.skip_data_beyond beyond, collected, if_pos enough, Source.flow,
          List.take_append_of_le_length (Nat.le_of_lt beyond)]
    | endOfStream =>
      rw [fill_endOfStream missing, asked, collected_dry n.succ_pos rfl]
      rfl
    | fault fault =>
      rw [fill_fault missing]
      by_cases interrupted : fault.kind = .interrupted
      · have moved : collected (n + 1) filled (.fault fault :: rest) =
            collected (n + 1) filled rest := by
          simp only [collected, Source.flow, Source.fault?, if_pos interrupted]
        rw [if_pos interrupted, ih within, asked, moved,
          Source.skip_interrupted n.succ_pos interrupted]
      · have dry : Source.flow (.fault fault :: rest) = [] := if_neg interrupted
        rw [if_neg interrupted, asked, collected_dry n.succ_pos dry, Source.fault?,
          if_neg interrupted, Source.skip, if_neg interrupted]
        rfl

theorem fill_start (width : Nat) (s : Source) :
    fill width [] s = (collected width [] s, s.skip width) :=
  fill_eq (Nat.zero_le width)

end Blocking

/-! ## The suspending loop -/

namespace Suspending

variable {width : Nat} {filled : Bytes} {s : PollSource} {fault : Fault}

theorem fill_full {σ : Type} [Readable σ (.ready (.ok []) : Poll (Except Fault Bytes))] {s : σ}
    (full : width ≤ filled.length) : fill width filled s = (.ok filled, s) := by
  rw [fill, dif_neg (by omega)]

theorem fill_nil (missing : filled.length < width) :
    fill width filled ([] : PollSource) = (.error (.endOfStream filled.length), []) := by
  rw [fill, dif_pos missing]
  rfl

theorem fill_pending (missing : filled.length < width) :
    fill width filled (.pending :: s) = fill width filled s := by
  rw [fill, dif_pos missing]
  rfl

theorem fill_endOfStream (missing : filled.length < width) :
    fill width filled (.ready .endOfStream :: s) = (.error (.endOfStream filled.length), s) := by
  rw [fill, dif_pos missing]
  rfl

theorem fill_fault (missing : filled.length < width) :
    fill width filled (.ready (.fault fault) :: s) =
      if fault.kind = .interrupted then fill width filled s else (.error (.fault fault), s) := by
  rw [fill, dif_pos missing]
  rfl

theorem fill_data (missing : filled.length < width) (chunk : Chunk) :
    fill width filled (.ready (.data chunk) :: s) =
      fill width (filled ++ chunk.bytes.take (width - filled.length))
        ((push (chunk.bytes.drop (width - filled.length)) []).map .ready ++ s) := by
  rw [fill, dif_pos missing]
  obtain ⟨n, asked⟩ := Nat.exists_eq_add_one_of_ne_zero (Nat.sub_ne_zero_of_lt missing)
  rw [asked]
  rfl

/-- Suspensions do not show in what is collected. -/
theorem fill_settled :
    Blocking.fill width filled (Poll.settled s) =
      ((fill width filled s).1, Poll.settled (fill width filled s).2) := by
  induction s generalizing filled with
  | nil =>
    by_cases missing : filled.length < width
    · rw [fill_nil missing, Poll.settled_nil, Blocking.fill_nil missing]
    · rw [fill_full (Nat.le_of_not_lt missing), Blocking.fill_full (Nat.le_of_not_lt missing)]
  | cons item rest ih =>
    by_cases missing : filled.length < width
    · cases item with
      | pending => rw [fill_pending missing, Poll.settled_pending, ih]
      | ready item =>
        rw [Poll.settled_ready]
        cases item with
        | data chunk =>
          rw [fill_data missing, Blocking.fill_data missing]
          by_cases whole : chunk.bytes.length ≤ width - filled.length
          · -- the whole chunk is taken, so the loop goes on with the items behind it
            rw [List.drop_eq_nil_of_le whole]
            exact ih
          · have full : width ≤ (filled ++ chunk.bytes.take (width - filled.length)).length := by
              rw [List.length_append, List.length_take]
              omega
            rw [fill_full full, Blocking.fill_full full, Poll.settled_append,
              Poll.settled_map_ready, Source.push_nil_append]
        | endOfStream => rw [fill_endOfStream missing, Blocking.fill_endOfStream missing]
        | fault fault =>
          rw [fill_fault missing, Blocking.fill_fault missing]
          by_cases interrupted : fault.kind = .interrupted
          · rw [if_pos interrupted, if_pos interrupted, ih]
          · rw [if_neg interrupted, if_neg interrupted]
    · rw [fill_full (Nat.le_of_not_lt missing), Blocking.fill_full (Nat.le_of_not_lt missing)]

end Suspending

end Nbd
