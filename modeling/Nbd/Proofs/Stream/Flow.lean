import Nbd.Stream.Source

/-! # What flows from a source

A reader that makes interrupted calls again sees a source as a flow of bytes that
something stops: a fault, or the end of the stream.  `Source.flow` and
`Source.fault?` say what that reader sees, and `Source.skip` what remains once it
has taken a number of bytes.  None of them depends on how the bytes are cut into
chunks or where the interruptions fall.
-/

namespace Nbd

namespace Source

/-! ## The flow and its end -/

/-- The bytes that arrive before anything but an interruption does. -/
def flow : Source → Bytes
  | [] => []
  | .data chunk :: rest => chunk.bytes ++ flow rest
  | .endOfStream :: _ => []
  | .fault fault :: rest => if fault.kind = .interrupted then flow rest else []

/-- The fault that stops the flow; none if the stream ends. -/
def fault? : Source → Option Fault
  | [] => none
  | .data _ :: rest => fault? rest
  | .endOfStream :: _ => none
  | .fault fault :: rest => if fault.kind = .interrupted then fault? rest else some fault

/-- What remains after a call for a number of bytes has taken them from the flow, or
    has used up what stopped it short of them. -/
def skip : Nat → Source → Source
  | 0, s => s
  | _ + 1, [] => []
  | n + 1, .data chunk :: rest =>
    if chunk.bytes.length ≤ n + 1 then skip (n + 1 - chunk.bytes.length) rest
    else push (chunk.bytes.drop (n + 1)) rest
  | _ + 1, .endOfStream :: rest => rest
  | n + 1, .fault fault :: rest =>
    if fault.kind = .interrupted then skip (n + 1) rest else rest

@[simp] theorem skip_zero (s : Source) : skip 0 s = s := by
  cases s <;> rfl

theorem push_nil_append (bs : Bytes) (s : Source) : push bs [] ++ s = push bs s := by
  cases bs <;> rfl

@[simp] theorem flow_push (bs : Bytes) (s : Source) : flow (push bs s) = bs ++ flow s := by
  cases bs <;> rfl

@[simp] theorem fault?_push (bs : Bytes) (s : Source) : fault? (push bs s) = fault? s := by
  cases bs <;> rfl

@[simp] theorem contents_push (bs : Bytes) (s : Source) :
    contents (push bs s) = bs ++ contents s := by
  cases bs <;> rfl

theorem skip_data_within {n : Nat} {chunk : Chunk} {rest : Source}
    (within : chunk.bytes.length ≤ n) :
    skip n (.data chunk :: rest) = skip (n - chunk.bytes.length) rest := by
  cases n with
  | zero => simp [Chunk.bytes] at within
  | succ n => rw [skip, if_pos within]

theorem skip_data_beyond {n : Nat} {chunk : Chunk} {rest : Source}
    (beyond : n < chunk.bytes.length) :
    skip n (.data chunk :: rest) = push (chunk.bytes.drop n) rest := by
  cases n with
  | zero => rfl
  | succ n => rw [skip, if_neg (by omega)]

theorem skip_interrupted {n : Nat} {fault : Fault} {rest : Source} (asked : 0 < n)
    (interrupted : fault.kind = .interrupted) : skip n (.fault fault :: rest) = skip n rest := by
  cases n with
  | zero => cases asked
  | succ n => rw [skip, if_pos interrupted]

/-- Taking bytes from the flow leaves the rest of it, stopped as before. -/
theorem flow_skip {n : Nat} {s : Source} (enough : n ≤ s.flow.length) :
    flow (skip n s) = s.flow.drop n ∧ fault? (skip n s) = fault? s := by
  -- `n` shrinks with every chunk, and no end or fault is reached while it is positive
  induction s generalizing n with
  | nil =>
    obtain rfl : n = 0 := by simpa [flow] using enough
    exact ⟨rfl, rfl⟩
  | cons item rest ih =>
    cases item with
    | data chunk =>
      simp only [flow, List.length_append] at enough
      simp only [flow, fault?]
      by_cases within : chunk.bytes.length ≤ n
      · obtain ⟨dropped, stopped⟩ := ih (n := n - chunk.bytes.length) (by omega)
        rw [skip_data_within within, dropped, List.drop_append, List.drop_eq_nil_of_le within]
        exact ⟨rfl, stopped⟩
      · have beyond : n < chunk.bytes.length := by omega
        rw [skip_data_beyond beyond, flow_push, fault?_push,
          List.drop_append_of_le_length (Nat.le_of_lt beyond)]
        exact ⟨rfl, rfl⟩
    | endOfStream =>
      obtain rfl : n = 0 := by simpa [flow] using enough
      exact ⟨rfl, rfl⟩
    | fault fault =>
      by_cases interrupted : fault.kind = .interrupted
      · cases n with
        | zero => exact ⟨rfl, rfl⟩
        | succ n =>
          simp only [flow, fault?, if_pos interrupted] at enough ⊢
          rw [skip_interrupted n.succ_pos interrupted]
          exact ih enough
      · obtain rfl : n = 0 := by simpa [flow, interrupted] using enough
        exact ⟨by rw [skip_zero, List.drop_zero], by rw [skip_zero]⟩

/-- What a call for a number of bytes takes from the flow stands in front of all data. -/
theorem contents_skip (n : Nat) (s : Source) :
    contents s = s.flow.take n ++ contents (skip n s) := by
  induction s generalizing n with
  | nil => cases n <;> rfl
  | cons item rest ih =>
    cases n with
    | zero => rw [List.take_zero, skip_zero, List.nil_append]
    | succ n =>
      cases item with
      | data chunk =>
        rw [contents, flow, List.take_append]
        by_cases within : chunk.bytes.length ≤ n + 1
        · rw [skip_data_within within, List.take_of_length_le within, List.append_assoc, ← ih]
        · -- the call ends inside the chunk, and the rest of the chunk is pushed back
          have beyond : n + 1 < chunk.bytes.length := Nat.lt_of_not_le within
          rw [skip_data_beyond beyond, contents_push, Nat.sub_eq_zero_of_le (Nat.le_of_lt beyond),
            List.take_zero, List.append_nil, ← List.append_assoc, List.take_append_drop]
      | endOfStream => rfl
      | fault fault =>
        by_cases interrupted : fault.kind = .interrupted
        · rw [skip_interrupted n.succ_pos interrupted, flow, if_pos interrupted]
          exact ih (n + 1)
        · rw [skip, flow, if_neg interrupted, if_neg interrupted]
          rfl

end Source

/-! ## Scripts that deliver known bytes -/

/-- The source delivers exactly these bytes and then ends, in whatever chunks and with
    whatever interruptions. -/
inductive Source.Transmits : Bytes → Source → Prop where
  | exhausted : Transmits [] []
  | ended (rest : Source) : Transmits [] (.endOfStream :: rest)
  | data (chunk : Chunk) {bytes : Bytes} {rest : Source} :
      Transmits bytes rest → Transmits (chunk.bytes ++ bytes) (.data chunk :: rest)
  | interrupted {fault : Fault} {bytes : Bytes} {rest : Source} :
      fault.kind = .interrupted → Transmits bytes rest → Transmits bytes (.fault fault :: rest)

theorem Source.Transmits.push (bytes : Bytes) : (push bytes []).Transmits bytes := by
  cases bytes with
  | nil => exact .exhausted
  | cons b bs =>
    have once : Transmits (Chunk.bytes ⟨b, bs⟩ ++ []) [.data ⟨b, bs⟩] := .data _ .exhausted
    rwa [List.append_nil] at once

theorem Source.Transmits.flow_eq {bytes : Bytes} {s : Source} (transmits : s.Transmits bytes) :
    s.flow = bytes ∧ s.fault? = none := by
  induction transmits with
  | exhausted => exact ⟨rfl, rfl⟩
  | ended rest => exact ⟨rfl, rfl⟩
  | data chunk _ ih => exact ⟨by rw [flow, ih.1], ih.2⟩
  | interrupted kind _ ih => simp only [flow, fault?, if_pos kind, ih, and_self]

end Nbd
