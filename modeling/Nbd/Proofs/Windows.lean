import Mathlib.Tactic.Ring
import Nbd.Proofs.RoundTrip

/-! # Where a byte counts

The fields of a message stand one behind the other, each in a window of its own, so every
byte of a message belongs to one field.  In a field of `w` bytes that starts at `o`, the
byte at `p` weighs `256 ^ (o + w - 1 - p)`.  Replacing one byte of an encoded message hence
moves one field by the difference times that weight and leaves the others as they are; the
bytes behind the message do not count.
-/

namespace Nbd

/-! ## Windows -/

/-- The widths of the fields of a kind, in wire order. -/
def Kind.widths : Kind → List Nat
  | .handshakeHeader => [8, 8, 2]
  | .clientFlags => [4]
  | .optionRequest => [8, 4, 4]
  | .exportDetails => [8, 2]
  | .optionReply => [8, 4, 4, 4]
  | .request => [4, 2, 2, 8, 8, 4]
  | .reply => [4, 4, 8]
  | .exportInfo => [2, 8, 2]
  | .blockSizeInfo => [2, 4, 4, 4]
  | .word .w16 => [2]
  | .word .w32 => [4]
  | .word .w64 => [8]

theorem Kind.widths_eq (k : Kind) : k.widths = k.sizes.map WordSize.width := by
  cases k with
  | word size => cases size <;> rfl
  | _ => rfl

/-- The place of a field: the bytes from `start` to `start + width`, the last excluded. -/
structure Window where
  start : Nat
  width : Nat

namespace Window

def Covers (w : Window) (p : Nat) : Prop := w.start ≤ p ∧ p < w.start + w.width

/-- Windows of the given widths, each starting where the one before it stops. -/
def sequence (start : Nat) : List Nat → List Window
  | [] => []
  | width :: widths => ⟨start, width⟩ :: sequence (start + width) widths

variable {start p : Nat} {widths : List Nat}

theorem start_le_of_mem {w : Window} (listed : w ∈ sequence start widths) : start ≤ w.start := by
  induction widths generalizing start with
  | nil => cases listed
  | cons width widths ih =>
    cases listed with
    | head => exact Nat.le_refl start
    | tail _ later => exact Nat.le_of_add_right_le (ih later)

/-- No two windows share a byte. -/
theorem eq_of_covers {i j : Nat} {v w : Window}
    (first : (sequence start widths)[i]? = some v) (covered : v.Covers p)
    (second : (sequence start widths)[j]? = some w) (again : w.Covers p) : j = i := by
  induction widths generalizing start i j with
  | nil => cases first
  | cons width widths ih =>
    -- all later windows start where the first one stops
    have apart : ∀ {w : Window}, w ∈ sequence (start + width) widths → w.Covers p →
        ¬ (⟨start, width⟩ : Window).Covers p := by
      intro w listed covers front
      have behind := start_le_of_mem listed
      exact Nat.not_le_of_lt front.2 (Nat.le_trans behind covers.1)
    cases i with
    | zero =>
      cases j with
      | zero => rfl
      | succ j =>
        cases first
        exact absurd covered (apart (List.mem_of_getElem? second) again)
    | succ i =>
      cases j with
      | zero =>
        cases second
        exact absurd again (apart (List.mem_of_getElem? first) covered)
      | succ j => exact congrArg (· + 1) (ih first second)

end Window

/-- The windows of the fields of a kind. -/
def Kind.windows (k : Kind) : List Window := Window.sequence 0 k.widths

/-! ## Bytes in a number -/

theorem ofBigEndian_set {bytes : Bytes} {p : Nat} {b : UInt8} (held : bytes[p]? = some b)
    (v : UInt8) :
    (ofBigEndian (bytes.set p v) : Int) =
      ofBigEndian bytes + ((v.toNat : Int) - b.toNat) * 256 ^ (bytes.length - 1 - p) := by
  induction bytes generalizing p with
  | nil => cases held
  | cons c bytes ih =>
    cases p with
    | zero =>
      obtain rfl : c = b := by simpa using held
      simp only [List.set_cons_zero, ofBigEndian, List.length_cons, Nat.add_sub_cancel,
        Nat.sub_zero]
      push_cast
      ring
    | succ p =>
      have weight : (c :: bytes).length - 1 - (p + 1) = bytes.length - 1 - p := by
        rw [List.length_cons]
        omega
      rw [List.set_cons_succ, ofBigEndian, ofBigEndian, List.length_set, weight]
      push_cast
      rw [ih (by simpa using held)]
      ring

/-- The word `new` is what `old` becomes when the byte at `p` changes from `b` to `v`. -/
structure Window.Patched (w : Window) (p : Nat) (b v : UInt8) (old new : Word) : Prop where
  size : new.size = old.size
  shifted : (new.toNat : Int) =
    old.toNat + ((v.toNat : Int) - b.toNat) * 256 ^ (w.start + w.width - 1 - p)
  range : new.toNat < 256 ^ w.width

theorem Word.patch {old : Word} {start p : Nat} {b : UInt8} (behind : start ≤ p)
    (held : old.encode[p - start]? = some b) (v : UInt8) :
    ∃ new : Word, (⟨start, old.size.width⟩ : Window).Patched p b v old new ∧
      new.encode = old.encode.set (p - start) v := by
  have length : (old.encode.set (p - start) v).length = old.size.width := by
    rw [List.length_set, length_encode]
  obtain ⟨new, alike, spelled⟩ := exists_encode length
  have weight : old.size.width - 1 - (p - start) = start + old.size.width - 1 - p := by omega
  have shifted := ofBigEndian_set held v
  rw [← spelled, ofBigEndian_encode, ofBigEndian_encode, length_encode, weight] at shifted
  exact ⟨new, ⟨alike, shifted, alike ▸ new.toNat_lt⟩, spelled⟩

/-! ## Bytes in a row of words -/

/-- Changing a byte of a row changes the one word whose window covers it. -/
theorem Word.patch_row {row : List Word} {start p : Nat} {b : UInt8} (behind : start ≤ p)
    (held : (row.flatMap encode)[p - start]? = some b) (v : UInt8) :
    ∃ i window old new,
      (Window.sequence start ((row.map size).map WordSize.width))[i]? = some window ∧
      window.Covers p ∧ row[i]? = some old ∧ window.Patched p b v old new ∧
      (row.set i new).flatMap encode = (row.flatMap encode).set (p - start) v := by
  -- a byte behind the first word is a byte of the words after it, one width further on
  induction row generalizing start with
  | nil => cases held
  | cons first row ih =>
    rw [List.flatMap_cons] at held ⊢
    by_cases here : p - start < first.encode.length
    · rw [List.getElem?_append_left here] at held
      obtain ⟨new, patched, spelled⟩ := patch behind held v
      rw [length_encode] at here
      refine ⟨0, _, first, new, rfl, ⟨behind, ?_⟩, rfl, patched, ?_⟩
      · change p < start + first.size.width
        omega
      · rw [← length_encode] at here
        rw [List.set_cons_zero, List.flatMap_cons, spelled, List.set_append_left _ _ here]
    · have past : first.encode.length ≤ p - start := Nat.le_of_not_lt here
      rw [List.getElem?_append_right past, length_encode, Nat.sub_sub] at held
      rw [List.set_append_right _ _ past]
      rw [length_encode] at past ⊢
      rw [Nat.sub_sub]
      obtain ⟨i, window, old, new, placed, covers, listed, patched, spelled⟩ :=
        ih (by omega) held
      exact ⟨i + 1, window, old, new, placed, covers, listed, patched,
        congrArg (first.encode ++ ·) spelled⟩

/-- The bytes in the window of a word are the bytes of that word, whatever follows the row. -/
theorem Word.take_window {row : List Word} {start i : Nat} {window : Window} {w : Word}
    (placed : (Window.sequence start ((row.map size).map WordSize.width))[i]? = some window)
    (listed : row[i]? = some w) (trailing : Bytes) :
    ((row.flatMap encode ++ trailing).drop (window.start - start)).take window.width =
      w.encode := by
  induction row generalizing start i with
  | nil => cases listed
  | cons first row ih =>
    rw [List.flatMap_cons, List.append_assoc]
    cases i with
    | zero =>
      cases placed
      cases listed
      rw [Nat.sub_self, List.drop_zero]
      exact List.take_left' w.length_encode
    | succ i =>
      simp only [List.map_cons, Window.sequence, List.getElem?_cons_succ] at placed listed
      -- the windows behind the first word start where it stops
      have behind := Window.start_le_of_mem (List.mem_of_getElem? placed)
      have past : window.start - start =
          first.encode.length + (window.start - (start + first.size.width)) := by
        rw [first.length_encode]
        omega
      rw [past, List.drop_length_add_append]
      exact ih placed listed

/-! ## Bytes in a message -/

namespace Message

theorem take_window {k : Kind} {input : Bytes} {m : Message}
    (decoded : (decode k input).result = .ok m) {i : Nat} {window : Window} {w : Word}
    (placed : k.windows[i]? = some window) (listed : m.fields[i]? = some w) :
    (input.drop window.start).take window.width = w.encode := by
  obtain ⟨rfl, front⟩ := decode_eq_ok_iff.mp decoded
  have whole : m.fields.flatMap Word.encode ++ input.drop m.kind.size = input := by
    rw [← m.encode_eq_row, front, List.take_append_drop]
  rw [Kind.windows, Kind.widths_eq, ← m.fields_sized] at placed
  have spelled := Word.take_window placed listed (input.drop m.kind.size)
  rwa [whole, Nat.sub_zero] at spelled

/-- A field holds the number that the bytes of its window spell. -/
theorem toNat_field {k : Kind} {input : Bytes} {m : Message}
    (decoded : (decode k input).result = .ok m) {i : Nat} {window : Window} {w : Word}
    (placed : k.windows[i]? = some window) (listed : m.fields[i]? = some w) :
    w.toNat = ofBigEndian ((input.drop window.start).take window.width) := by
  rw [take_window decoded placed listed, Word.ofBigEndian_encode]

theorem exists_set_field {m : Message} {i : Nat} {old new : Word} (listed : m.fields[i]? = some old)
    (alike : new.size = old.size) :
    ∃ changed : Message, changed.kind = m.kind ∧ changed.fields = m.fields.set i new := by
  apply Kind.exists_fields
  obtain ⟨inside, found⟩ := List.getElem?_eq_some_iff.mp listed
  rw [List.map_set, alike, ← found, ← List.getElem_map Word.size, List.set_getElem_self,
    fields_sized]
  rwa [List.length_map]

/-- Every byte of a message lies in the window of one field.  Replacing it moves that field by
    the difference of the bytes times the weight of the place, and nothing else; replacing a
    byte behind the message changes nothing. -/
theorem decode_set_byte (k : Kind) (input : Bytes) (p : Nat) (v : UInt8)
    (enough : k.size ≤ input.length) :
    ∃ m : Message, (decode k input).result = .ok m ∧
      (k.size ≤ p → decode k (input.set p v) = decode k input) ∧
      (p < k.size → ∃ i window b old new changed,
        k.windows[i]? = some window ∧ window.Covers p ∧
        (∀ j other, k.windows[j]? = some other → other.Covers p → j = i) ∧
        input[p]? = some b ∧ m.fields[i]? = some old ∧ window.Patched p b v old new ∧
        (decode k (input.set p v)).result = .ok changed ∧
        changed.kind = m.kind ∧ changed.fields = m.fields.set i new) := by
  obtain ⟨m, rfl, front⟩ := exists_encode_append enough
  have decoded := decode_front front
  refine ⟨m, congrArg Answer.result decoded, ?_, ?_⟩
  · intro behind
    have same : m.encode = (input.set p v).take m.kind.size := by
      rw [List.take_set_of_le behind, front]
    rw [decode_front same, decoded]
  · intro within
    obtain ⟨b, held⟩ : ∃ b, input[p]? = some b :=
      ⟨_, List.getElem?_eq_getElem (Nat.lt_of_lt_of_le within enough)⟩
    have heldInRow : (m.fields.flatMap Word.encode)[p - 0]? = some b := by
      rw [← m.encode_eq_row, front, Nat.sub_zero, List.getElem?_take_of_lt within, held]
    obtain ⟨i, window, old, new, placed, covers, listed, patched, spelled⟩ :=
      Word.patch_row p.zero_le heldInRow v
    rw [m.fields_sized, ← Kind.widths_eq] at placed
    obtain ⟨changed, kind, fields⟩ := exists_set_field listed patched.size
    have frontChanged : changed.encode = (input.set p v).take changed.kind.size := by
      rw [kind, List.take_set, ← front, m.encode_eq_row, changed.encode_eq_row, fields, spelled,
        Nat.sub_zero]
    have decodedChanged := decode_front frontChanged
    rw [kind] at decodedChanged
    refine ⟨i, window, b, old, new, changed, placed, covers, ?_, held, listed, patched,
      congrArg Answer.result decodedChanged, kind, fields⟩
    intro j other listedOther coversOther
    exact Window.eq_of_covers placed covers listedOther coversOther

theorem decode_set_byte_details :
    let input : Bytes := [0, 0, 0, 0, 0, 0, 1, 0, 0, 3, 9]
    Kind.size .exportDetails ≤ input.length ∧
      (decode .exportDetails input).result = .ok (.exportDetails ⟨256, 3⟩) ∧
      (∃ new changed, (⟨0, 8⟩ : Window).Patched 6 1 2 (.w64 256) new ∧
        (decode .exportDetails (input.set 6 2)).result = .ok changed ∧
        changed.kind = .exportDetails ∧ changed.fields = [new, .w16 3]) ∧
      decode .exportDetails (input.set 10 7) = decode .exportDetails input := by
  intro input
  have enough : Kind.size .exportDetails ≤ input.length := by decide
  obtain ⟨m, decoded, _, within⟩ := decode_set_byte .exportDetails input 6 2 enough
  obtain ⟨_, _, behind, _⟩ := decode_set_byte .exportDetails input 10 7 enough
  have before : (decode .exportDetails input).result = .ok (.exportDetails ⟨256, 3⟩) := rfl
  cases decoded.symm.trans before
  obtain ⟨i, window, b, old, new, changed, placed, _, only, held, listed, patched, after, kind,
    fields⟩ := within (by decide)
  obtain rfl : 0 = i := only 0 ⟨0, 8⟩ rfl ⟨by decide, by decide⟩
  cases placed
  cases held
  cases listed
  exact ⟨enough, before, ⟨new, changed, patched, after, kind, fields⟩, behind (by decide)⟩

end Message

end Nbd
