import Nbd.Proofs.Stream.Mode

/-! # Where a read stops

A read goes past data and interruptions and can be stopped by any other item.  Said of the
script itself, with no loop in it: if the data in front of the stop is enough for the message,
the read takes its bytes and leaves everything behind the last of them; if it is not, the read
fails with what stopped it and leaves everything behind the stop (`Blocking.read_specified`).
-/

namespace Nbd

/-- Whether a read goes past this item when it needs more bytes than the item gives. -/
def SourceItem.passes : SourceItem → Bool
  | .data _ => true
  | .endOfStream => false
  | .fault f => f.kind = .interrupted

theorem SourceItem.passes_fault {f : Fault} :
    passes (.fault f) = true ↔ f.kind = .interrupted := by
  rw [passes, decide_eq_true_iff]

namespace Source

/-! ## Before and after the stop -/

/-- The items in front of the first one that stops a read. -/
def passed (s : Source) : Source := s.takeWhile SourceItem.passes

/-- The script from the first item that stops a read; nothing is left if there is none. -/
def stopped (s : Source) : Source := s.dropWhile SourceItem.passes

theorem passed_append_stopped (s : Source) : s.passed ++ s.stopped = s :=
  List.takeWhile_append_dropWhile

theorem passes_of_mem_passed {s : Source} {item : SourceItem} (listed : item ∈ s.passed) :
    item.passes := List.all_eq_true.mp List.all_takeWhile item listed

theorem stopped_cases (s : Source) :
    s.stopped = [] ∨ (∃ after, s.stopped = .endOfStream :: after) ∨
      ∃ fault after, fault.kind ≠ .interrupted ∧ s.stopped = .fault fault :: after := by
  cases found : s.stopped with
  | nil => exact .inl rfl
  | cons item after =>
    have stops : item.passes = false := by
      have first := List.head?_dropWhile_not SourceItem.passes s
      rw [← stopped, found] at first
      exact first
    cases item with
    | data chunk => cases stops
    | endOfStream => exact .inr (.inl ⟨after, rfl⟩)
    | fault fault =>
      refine .inr (.inr ⟨fault, after, fun interrupted => ?_, rfl⟩)
      rw [SourceItem.passes_fault.mpr interrupted] at stops
      cases stops

section
variable {front : Source} (passes : ∀ item ∈ front, item.passes) (s : Source)
include passes

/-- Items that a read goes past add their data to the flow and do not end it. -/
theorem flow_append : flow (front ++ s) = contents front ++ flow s ∧
    fault? (front ++ s) = fault? s := by
  induction front with
  | nil => exact ⟨rfl, rfl⟩
  | cons item front ih =>
    obtain ⟨first, later⟩ := List.forall_mem_cons.mp passes
    obtain ⟨flows, ends⟩ := ih later
    cases item with
    | data chunk => exact ⟨by rw [List.cons_append, flow, flows, contents, List.append_assoc], ends⟩
    | endOfStream => cases first
    | fault fault =>
      have interrupted : fault.kind = .interrupted := SourceItem.passes_fault.mp first
      rw [List.cons_append, flow, fault?, if_pos interrupted, if_pos interrupted]
      exact ⟨flows, ends⟩

theorem skip_append {n : Nat} (more : (contents front).length < n) :
    skip n (front ++ s) = skip (n - (contents front).length) s := by
  -- more is asked for than `front` gives, so interruptions at its end are gone past as well
  induction front generalizing n with
  | nil => rfl
  | cons item front ih =>
    obtain ⟨first, later⟩ := List.forall_mem_cons.mp passes
    rw [List.cons_append]
    cases item with
    | data chunk =>
      rw [contents, List.length_append] at more ⊢
      rw [skip_data_within (by omega), ih later (by omega), Nat.sub_sub]
    | endOfStream => cases first
    | fault fault =>
      rw [skip_interrupted (Nat.zero_lt_of_lt more) (SourceItem.passes_fault.mp first)]
      exact ih later more

end

theorem flow_eq_passed (s : Source) : s.flow = contents s.passed := by
  obtain ⟨flows, _⟩ := flow_append (fun _ => passes_of_mem_passed) (s := s.stopped)
  have dry : s.stopped.flow = [] := by
    obtain stop | ⟨after, stop⟩ | ⟨fault, after, kind, stop⟩ := s.stopped_cases
    · rw [stop, flow]
    · rw [stop, flow]
    · rw [stop, flow, if_neg kind]
  rwa [dry, List.append_nil, passed_append_stopped] at flows

theorem fault?_eq_stopped (s : Source) : s.fault? = s.stopped.fault? := by
  obtain ⟨_, ends⟩ := flow_append (fun _ => passes_of_mem_passed) (s := s.stopped)
  rwa [passed_append_stopped] at ends

/-- A read that asks for more than there is uses up what stops it and nothing behind it. -/
theorem skip_eq_tail {n : Nat} {s : Source} (short : s.flow.length < n) :
    s.skip n = s.stopped.tail := by
  rw [flow_eq_passed] at short
  have behind := skip_append (fun _ => passes_of_mem_passed) s.stopped short
  obtain ⟨m, more⟩ := Nat.exists_eq_add_one_of_ne_zero (Nat.sub_ne_zero_of_lt short)
  rw [passed_append_stopped, more] at behind
  rw [behind]
  -- at least one byte is still missing when the read meets what stops it
  obtain stop | ⟨after, stop⟩ | ⟨fault, after, kind, stop⟩ := s.stopped_cases
  · rw [stop]
    rfl
  · rw [stop]
    rfl
  · rw [stop, skip, if_neg kind]
    rfl

/-! ## Inside a chunk -/

/-- A script, and the same script without its first `n` bytes of data and without the
    interruptions in front of the chunk that holds the last of these bytes. -/
inductive Cut (n : Nat) : Source → Source → Prop where
  | inside (front : Source) (chunk : Chunk) (after : Source) :
    (∀ item ∈ front, item.passes) → (contents front).length < n →
    n ≤ (contents front).length + chunk.bytes.length →
    Cut n (front ++ .data chunk :: after)
      (push (chunk.bytes.drop (n - (contents front).length)) after)

theorem Cut.behind_data {n : Nat} {s rest : Source} (cut : s.Cut n rest) (chunk : Chunk) :
    Cut (chunk.bytes.length + n) (.data chunk :: s) rest := by
  obtain ⟨front, last, after, passes, before, within⟩ := cut
  have length : (contents (.data chunk :: front)).length =
      chunk.bytes.length + (contents front).length := List.length_append
  have same : n - (contents front).length =
      chunk.bytes.length + n - (contents (.data chunk :: front)).length := by omega
  rw [same]
  have first : (SourceItem.data chunk).passes := rfl
  have passesAll : ∀ item ∈ .data chunk :: front, item.passes :=
    List.forall_mem_cons.mpr ⟨first, passes⟩
  exact .inside _ last after passesAll (by omega) (by omega)

theorem Cut.behind_interruption {n : Nat} {s rest : Source} (cut : s.Cut n rest) {fault : Fault}
    (interrupted : fault.kind = .interrupted) : Cut n (.fault fault :: s) rest := by
  obtain ⟨front, last, after, passes, before, within⟩ := cut
  have first := SourceItem.passes_fault.mpr interrupted
  exact .inside _ last after (List.forall_mem_cons.mpr ⟨first, passes⟩) before within

theorem exists_cut {n : Nat} {s : Source} (asked : 0 < n) (enough : n ≤ s.flow.length) :
    ∃ rest, s.Cut n rest := by
  induction s generalizing n with
  | nil => exact absurd enough (Nat.not_le_of_lt asked)
  | cons item s ih =>
    cases item with
    | data chunk =>
      by_cases within : n ≤ chunk.bytes.length
      · have here : n ≤ (contents []).length + chunk.bytes.length := Nat.le_add_left_of_le within
        exact ⟨_, .inside [] chunk s (List.forall_mem_nil _) asked here⟩
      · rw [flow, List.length_append] at enough
        obtain ⟨rest, cut⟩ := ih (n := n - chunk.bytes.length) (by omega) (by omega)
        have behind := cut.behind_data chunk
        rw [Nat.add_sub_cancel' (Nat.le_of_not_le within)] at behind
        exact ⟨rest, behind⟩
    | endOfStream => exact absurd enough (Nat.not_le_of_lt asked)
    | fault fault =>
      by_cases interrupted : fault.kind = .interrupted
      · rw [flow, if_pos interrupted] at enough
        obtain ⟨rest, cut⟩ := ih asked enough
        exact ⟨rest, cut.behind_interruption interrupted⟩
      · rw [flow, if_neg interrupted] at enough
        exact absurd enough (Nat.not_le_of_lt asked)

/-- There is only one way to cut a script. -/
theorem Cut.eq_skip {n : Nat} {s rest : Source} (cut : s.Cut n rest) : rest = s.skip n := by
  obtain ⟨front, chunk, after, passes, before, within⟩ := cut
  rw [skip_append passes _ before]
  -- a chunk that is used up leaves nothing to push back
  obtain whole | part := Nat.eq_or_lt_of_le (Nat.sub_le_iff_le_add'.mpr within)
  · rw [whole, List.drop_length, skip_data_within (Nat.le_refl _), Nat.sub_self, skip_zero, push]
  · rw [skip_data_beyond part]

end Source

/-! ## Reads -/

/-- Every way a read of a message can end, and what it leaves of the script. -/
theorem Blocking.read_specified (route : Route) (k : Kind) (s : Source) :
    let data := s.passed.contents
    let outcome := (endpoint route).read k s
    (k.size ≤ data.length ∧ s.Cut k.size outcome.rest ∧
      ∃ m : Message, m.kind = k ∧ (Message.decode k (data.take k.size)).result = .ok m ∧
        outcome.toAnswer = ⟨.ok m, [.read k.codecName k.size]⟩) ∨
    (data.length < k.size ∧ (s.stopped = [] ∨ s.stopped.head? = some .endOfStream) ∧
      outcome.rest = s.stopped.tail ∧
      outcome.toAnswer = ⟨.error (.truncated k.size data.length),
        [.truncated k.codecName k.size data.length]⟩) ∨
    (data.length < k.size ∧ outcome.rest = s.stopped.tail ∧
      ∃ fault : Fault, s.stopped.head? = some (.fault fault) ∧ fault.kind ≠ .interrupted ∧
        outcome.toAnswer = .quiet (.error (.source fault))) := by
  intro data outcome
  have flows : s.flow = data := s.flow_eq_passed
  obtain ⟨answered, left⟩ : outcome.toAnswer = Message.received k (collected k.size [] s) ∧
      outcome.rest = s.skip k.size := @Mode.read_settled .blocking route k s
  rw [collected, flows, List.nil_append, List.length_nil, Nat.zero_add] at answered
  by_cases enough : k.size ≤ data.length
  · left
    rw [if_pos enough] at answered
    obtain ⟨rest, cut⟩ := s.exists_cut k.size_pos (flows ▸ enough)
    have remains : s.Cut k.size outcome.rest := by rwa [left, ← cut.eq_skip]
    refine ⟨enough, remains, ?_⟩
    obtain ⟨m, rfl, spelled⟩ := Message.exists_encode_append enough
    rw [← spelled, Message.received_encode] at answered
    refine ⟨m, rfl, ?_, answered⟩
    rw [← spelled, Message.decode_encode]
    rfl
  · have short : data.length < k.size := Nat.lt_of_not_le enough
    rw [if_neg enough, s.fault?_eq_stopped] at answered
    rw [Source.skip_eq_tail (flows ▸ short)] at left
    obtain stop | ⟨after, stop⟩ | ⟨fault, after, kind, stop⟩ := s.stopped_cases
    · rw [stop] at answered
      refine .inr (.inl ⟨short, .inl stop, left, ?_⟩)
      exact answered.trans (Message.received_endOfStream k data.length)
    · rw [stop] at answered
      refine .inr (.inl ⟨short, .inr (congrArg List.head? stop), left, ?_⟩)
      exact answered.trans (Message.received_endOfStream k data.length)
    · rw [stop, Source.fault?, if_neg kind] at answered
      exact .inr (.inr ⟨short, left, fault, congrArg List.head? stop, kind, answered⟩)

end Nbd
