import Nbd.Proofs.Stream.Flow

/-! # How a source is cut into chunks

`Source.bytewise` cuts every chunk of a source into single bytes, so two sources that
differ only in their chunks become equal by it.  Whatever takes bytes off a source takes
the same ones off its bytewise form and leaves the bytewise form of what it leaves; how
the source was cut does not matter, and what a step leaves behind can be said exactly.
-/

namespace Nbd.Source

/-! ## Single bytes -/

/-- A run of bytes, each in a chunk of its own. -/
def singles (bytes : Bytes) : Source := bytes.map fun b => .data ⟨b, []⟩

/-- The source with every chunk cut into single bytes. -/
def bytewise : Source → Source
  | [] => []
  | .data chunk :: rest => singles chunk.bytes ++ bytewise rest
  | .endOfStream :: rest => .endOfStream :: bytewise rest
  | .fault fault :: rest => .fault fault :: bytewise rest

theorem bytewise_push (bs : Bytes) (s : Source) :
    bytewise (push bs s) = singles bs ++ bytewise s := by
  cases bs <;> rfl

theorem flow_singles_append (bs : Bytes) (s : Source) : flow (singles bs ++ s) = bs ++ flow s := by
  induction bs with
  | nil => rfl
  | cons b bs ih => exact congrArg (b :: ·) ih

theorem flow_bytewise (s : Source) : flow (bytewise s) = flow s := by
  induction s with
  | nil => rfl
  | cons item rest ih =>
    cases item with
    | data chunk => rw [bytewise, flow_singles_append, ih, flow]
    | endOfStream => rfl
    | fault fault => rw [bytewise, flow, flow, ih]

/-! ## Taking bytes -/

theorem skip_singles_append (n : Nat) (bs : Bytes) (s : Source) :
    skip n (singles bs ++ s) = singles (bs.drop n) ++ skip (n - bs.length) s := by
  induction bs generalizing n with
  | nil =>
    rw [List.drop_nil, List.length_nil, Nat.sub_zero]
    rfl
  | cons b bs ih =>
    cases n with
    | zero => rw [skip_zero, Nat.zero_sub, skip_zero, List.drop_zero]
    | succ n =>
      have one : (Chunk.bytes ⟨b, []⟩).length ≤ n + 1 := Nat.le_add_left 1 n
      change skip (n + 1) (.data ⟨b, []⟩ :: (singles bs ++ s)) = _
      rw [skip_data_within one, List.drop_succ_cons, List.length_cons, Nat.add_sub_add_right]
      exact ih n

theorem bytewise_skip (n : Nat) (s : Source) : bytewise (skip n s) = skip n (bytewise s) := by
  induction s generalizing n with
  | nil => cases n <;> rfl
  | cons item rest ih =>
    cases item with
    | data chunk =>
      rw [bytewise, skip_singles_append]
      by_cases within : chunk.bytes.length ≤ n
      · rw [skip_data_within within, List.drop_eq_nil_of_le within, ih]
        rfl
      · -- the cut falls inside the chunk, so on the bytewise side nothing is left to skip
        have beyond : n < chunk.bytes.length := Nat.lt_of_not_le within
        rw [skip_data_beyond beyond, bytewise_push, Nat.sub_eq_zero_of_le (Nat.le_of_lt beyond),
          skip_zero]
    | endOfStream => cases n <;> rfl
    | fault fault =>
      by_cases interrupted : fault.kind = .interrupted
      · cases n with
        | zero => rw [skip_zero, skip_zero]
        | succ n =>
          rw [bytewise, skip_interrupted n.succ_pos interrupted,
            skip_interrupted n.succ_pos interrupted, ih]
      · cases n with
        | zero => rw [skip_zero, skip_zero]
        | succ n => rw [bytewise, skip, skip, if_neg interrupted, if_neg interrupted]

theorem takeData_zero (s : Source) : takeData 0 s = ([], s) := by
  cases s with
  | nil => rfl
  | cons item rest => cases item <;> rfl

theorem takeData_singles_append (n : Nat) (bs : Bytes) (s : Source) :
    takeData n (singles bs ++ s) =
      (bs.take n ++ (takeData (n - bs.length) s).1,
        singles (bs.drop n) ++ (takeData (n - bs.length) s).2) := by
  induction bs generalizing n with
  | nil =>
    rw [List.take_nil, List.drop_nil, List.length_nil, Nat.sub_zero]
    rfl
  | cons b bs ih =>
    cases n with
    | zero => simp only [Nat.zero_sub, takeData_zero, List.take_zero, List.drop_zero,
        List.nil_append]
    | succ n =>
      have one : (Chunk.bytes ⟨b, []⟩).length ≤ n + 1 := Nat.le_add_left 1 n
      change takeData (n + 1) (.data ⟨b, []⟩ :: (singles bs ++ s)) = _
      rw [takeData, if_pos one, List.length_cons, Nat.add_sub_add_right]
      change ([b] ++ (takeData n (singles bs ++ s)).1, (takeData n (singles bs ++ s)).2) = _
      rw [ih n]
      rfl

theorem bytewise_takeData (n : Nat) (s : Source) :
    takeData n (bytewise s) = ((takeData n s).1, bytewise (takeData n s).2) := by
  induction s generalizing n with
  | nil => rfl
  | cons item rest ih =>
    cases item with
    | data chunk =>
      rw [bytewise, takeData_singles_append, takeData]
      by_cases within : chunk.bytes.length ≤ n
      · rw [if_pos within, List.take_of_length_le within, List.drop_eq_nil_of_le within, ih]
        rfl
      · have beyond : n < chunk.bytes.length := Nat.lt_of_not_le within
        rw [if_neg within, Nat.sub_eq_zero_of_le (Nat.le_of_lt beyond), takeData_zero,
          List.append_nil, bytewise_push]
    | endOfStream => rfl
    | fault fault => rfl

/-! ## Bytes with interruptions between them -/

/-- The script gives these bytes one by one, with any interruptions before each of them but
    with none after the last. -/
inductive Spells : Bytes → Source → Prop where
  | nothing : Spells [] []
  | byte (b : UInt8) {bytes : Bytes} {s : Source} :
      Spells bytes s → Spells (b :: bytes) (.data ⟨b, []⟩ :: s)
  | interrupted {fault : Fault} {b : UInt8} {bytes : Bytes} {s : Source} :
      fault.kind = .interrupted → Spells (b :: bytes) s → Spells (b :: bytes) (.fault fault :: s)

theorem Spells.singles : (bytes : Bytes) → (singles bytes).Spells bytes
  | [] => .nothing
  | b :: bytes => .byte b (Spells.singles bytes)

/-- Skipping the bytes a script gives skips the script, and no more. -/
theorem Spells.take_append {bytes : Bytes} {front : Source} (spells : front.Spells bytes)
    (s : Source) :
    flow (front ++ s) = bytes ++ flow s ∧ skip bytes.length (front ++ s) = s := by
  induction spells with
  | nothing => exact ⟨rfl, skip_zero s⟩
  | byte b _ ih =>
    obtain ⟨flows, left⟩ := ih
    refine ⟨congrArg (b :: ·) flows, ?_⟩
    rw [List.cons_append, List.length_cons, skip_data_within (Nat.le_add_left 1 _)]
    exact left
  | interrupted kind _ ih =>
    obtain ⟨flows, left⟩ := ih
    constructor
    · rw [List.cons_append, flow, if_pos kind, flows]
    · exact (skip_interrupted (List.length_pos_iff.mpr (List.cons_ne_nil _ _)) kind).trans left

end Nbd.Source
