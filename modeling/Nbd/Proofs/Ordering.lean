import Nbd.Proofs.Drafts
import Nbd.Proofs.Session.Torn
import Nbd.Proofs.Windows

/-! # The order of block sizes

The three block sizes of an export are compared as numbers, and since each is written most
significant byte first in four bytes of its own, comparing the bytes from the left comes to the
same (`ofBigEndian_le_iff`).  So whether a block of sizes is well ordered can be seen in its bytes,
before they are decoded and after they have been sent.  Only building a block asks for the order;
decoding never does.
-/

namespace Nbd

/-! ## Numbers and bytes -/

/-- Numbers of one width compare as their bytes do from the left. -/
theorem ofBigEndian_lt_iff {as bs : Bytes} (same : as.length = bs.length) :
    ofBigEndian as < ofBigEndian bs ↔ as < bs := by
  induction as generalizing bs with
  | nil =>
    obtain rfl := List.length_eq_zero_iff.mp same.symm
    simp
  | cons a as ih =>
    cases bs with
    | nil => cases same
    | cons b bs =>
      have width : as.length = bs.length := Nat.succ.inj same
      have small : ofBigEndian as < 256 ^ bs.length := width ▸ ofBigEndian_lt as
      rw [ofBigEndian, ofBigEndian, width, leading_digit_lt_iff small (ofBigEndian_lt bs),
        ih width, List.cons_lt_cons_iff, UInt8.lt_iff_toNat_lt, UInt8.toNat_inj]

theorem ofBigEndian_le_iff {as bs : Bytes} (same : as.length = bs.length) :
    ofBigEndian as ≤ ofBigEndian bs ↔ as ≤ bs := by
  rw [← Nat.not_lt, ofBigEndian_lt_iff same.symm, List.not_lt]

theorem Word.encode_le_iff {v w : Word} (alike : v.size = w.size) :
    v.encode ≤ w.encode ↔ v.toNat ≤ w.toNat := by
  have same : v.encode.length = w.encode.length := by
    rw [length_encode, length_encode, alike]
  rw [← ofBigEndian_le_iff same, ofBigEndian_encode, ofBigEndian_encode]

/-! ## Blocks of sizes -/

namespace BlockSizeInfo

/-- The places of the three sizes are in lexicographic order. -/
def Ascending (bytes : Bytes) : Prop :=
  (bytes.drop 2).take 4 ≤ (bytes.drop 6).take 4 ∧ (bytes.drop 6).take 4 ≤ (bytes.drop 10).take 4

instance (bytes : Bytes) : Decidable (Ascending bytes) := inferInstanceAs (Decidable (_ ∧ _))

theorem isWellOrdered_iff_ascending {input : Bytes} {i : BlockSizeInfo}
    (decoded : (Message.decode .blockSizeInfo input).result = .ok (.blockSizeInfo i)) :
    i.isWellOrdered ↔ Ascending input := by
  have windows : Kind.windows .blockSizeInfo = [⟨0, 2⟩, ⟨2, 4⟩, ⟨6, 4⟩, ⟨10, 4⟩] := rfl
  have min : (input.drop 2).take 4 = (Word.w32 i.min).encode :=
    Message.take_window decoded (i := 1) (congrArg (·[1]?) windows) rfl
  have preferred : (input.drop 6).take 4 = (Word.w32 i.preferred).encode :=
    Message.take_window decoded (i := 2) (congrArg (·[2]?) windows) rfl
  have max : (input.drop 10).take 4 = (Word.w32 i.max).encode :=
    Message.take_window decoded (i := 3) (congrArg (·[3]?) windows) rfl
  have alike (v w : UInt32) : (Word.w32 v).encode ≤ (Word.w32 w).encode ↔ v ≤ w := by
    rw [Word.encode_le_iff (by rfl), UInt32.le_iff_toNat_le]
    rfl
  rw [Ascending, min, preferred, max, alike, alike, isWellOrdered,
    Bool.and_eq_true, decide_eq_true_iff, decide_eq_true_iff]

/-- Building a block fails exactly when its bytes would be out of order. -/
theorem ofSizes?_eq_none_iff_ascending (i : BlockSizeInfo) :
    ofSizes? i.min i.preferred i.max = none ↔ ¬ Ascending (Message.blockSizeInfo i).encode := by
  have decoded : (Message.decode .blockSizeInfo (Message.blockSizeInfo i).encode).result = _ :=
    congrArg Answer.result (Message.decode_encode (.blockSizeInfo i))
  rw [← isWellOrdered_iff_ascending decoded, ofSizes?_eq_none_iff, ← isWellOrdered_ofSizes]
  rfl

end BlockSizeInfo

/-! ## Sending and receiving -/

/-- A message that is written in full, and a stream that carries the bytes to a reader, with
    whatever comes behind them. -/
structure Transfer (m : Message) where
  writer : Mode
  reader : Mode
  out : Route
  back : Route
  sink : writer.Sink
  source : reader.Source
  more : Bytes
  written : ((writer.endpoint out).write m sink).result = .ok ()
  carried : (reader.settled source).flow = ((writer.endpoint out).write m sink).taken ++ more

namespace Transfer

variable {m : Message}

/-- What the reader receives. -/
def received (t : Transfer m) : Except Failure Message :=
  ((t.reader.endpoint t.back).read m.kind t.source).result

theorem received_eq (t : Transfer m) : t.received = .ok m := by
  obtain ⟨_, whole⟩ | ⟨fault, _, failed, _⟩ := Mode.write_takes t.out m t.sink
  · have front := t.carried
    rw [whole] at front
    exact (Mode.read_flow t.back m front).1
  · cases t.written.symm.trans failed

end Transfer

namespace BlockSizeInfo

/-- The order of the sizes is the order of their bytes: in whatever is decoded, which is never
    refused, and in whatever is built, which is refused if they are out of order.  So what was
    built is still well ordered when it has been sent. -/
theorem wellOrdered_bytes :
    (∀ input : Bytes, 14 ≤ input.length → ∃ i : BlockSizeInfo,
      (Message.decode .blockSizeInfo input).result = .ok (.blockSizeInfo i) ∧
      (i.isWellOrdered ↔ Ascending input)) ∧
    (∀ i : BlockSizeInfo,
      ofSizes? i.min i.preferred i.max = none ↔ ¬ Ascending (Message.blockSizeInfo i).encode) ∧
    (∀ (min preferred max : UInt32) (built : BlockSizeInfo),
      ofSizes? min preferred max = some built → ∀ t : Transfer (.blockSizeInfo built),
        ∃ i : BlockSizeInfo, t.received = .ok (.blockSizeInfo i) ∧ i.isWellOrdered) ∧
    ∀ (i : BlockSizeInfo) (t : Transfer (.blockSizeInfo i)),
      t.received = .ok (.blockSizeInfo i) := by
  refine ⟨?_, ofSizes?_eq_none_iff_ascending, ?_, fun i t => t.received_eq⟩
  · intro input enough
    obtain ⟨i, decoded⟩ := Message.exists_decode (k := .blockSizeInfo) enough
    exact ⟨i, decoded, isWellOrdered_iff_ascending decoded⟩
  · intro min preferred max built sizes t
    obtain ⟨ordered, rfl⟩ := ofSizes?_eq_some_iff.mp sizes
    exact ⟨_, t.received_eq, (isWellOrdered_ofSizes ..).mpr ordered⟩

/-- Sizes that were changed on the way no longer ascend; sizes that were not, still do. -/
theorem wellOrdered_bytes_sent :
    let changed : Bytes := [0, 3, 0, 0x0F, 0x42, 0x40, 0, 0, 0x10, 0, 0, 1, 0, 0]
    let built : BlockSizeInfo := ⟨3, 512, 4096, 65536⟩
    (14 ≤ changed.length ∧ ∃ i : BlockSizeInfo,
      (Message.decode .blockSizeInfo changed).result = .ok (.blockSizeInfo i) ∧
      ¬ i.isWellOrdered) ∧
    ofSizes? 512 4096 65536 = some built ∧
    ∃ t : Transfer (.blockSizeInfo built), ∃ i : BlockSizeInfo,
      t.received = .ok (.blockSizeInfo i) ∧ i.isWellOrdered := by
  intro changed built
  obtain ⟨decodes, _, survives, _⟩ := wellOrdered_bytes
  have sizes : ofSizes? 512 4096 65536 = some built := by decide
  obtain ⟨i, decoded, ordered_iff⟩ := decodes changed (by decide)
  have descends : ¬ Ascending changed := by decide
  let t : Transfer (.blockSizeInfo built) := {
    writer := .suspending
    reader := .blocking
    out := .direct
    back := .dispatched
    sink := [.pending, .ready (.accept 5)]
    source := [.data ⟨0, [3, 0]⟩, .fault ⟨.interrupted, "signal"⟩,
      .data ⟨0, [2, 0, 0, 0, 0x10, 0, 0, 1, 0, 0, 9]⟩]
    more := [9]
    written := by decide +kernel
    carried := by decide +kernel }
  exact ⟨⟨by decide, i, decoded, mt ordered_iff.mp descends⟩, sizes, t,
    survives 512 4096 65536 built sizes t⟩

end BlockSizeInfo

end Nbd
