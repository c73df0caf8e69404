import Mathlib.Algebra.Ring.Nat
import Nbd.Request

/-! # The range of a request

A request addresses `length` bytes from `offset`, and the words it keeps them in can only just
hold the two: their sum may not fit into 64 bits.  Here the checks on the range are compared with
the sum itself, a number without bound.  The end of the range is reported exactly when it can be
(`endOffset?_eq`), and a range fits into an export exactly when its end does not lie past the end
of the export (`fitsWithin_iff`); whatever else the check is used for follows from the latter.
-/

namespace Nbd.Request

/-- One past the last byte of the range. -/
def stop (r : Request) : Nat := r.offset.toNat + r.length.toNat

/-- The byte at place `i` of an export belongs to the range. -/
def Addresses (r : Request) (i : Nat) : Prop := r.offset.toNat ≤ i ∧ i < r.stop

/-- The first `length` bytes of the range. -/
def front (r : Request) (length : UInt32) : Request := { r with length }

/-- `length` bytes from place `start` of the range. -/
def behind (r : Request) (start length : UInt32) : Request :=
  { r with offset := r.offset + start.toUInt64, length }

variable {r : Request} {size : UInt64}

/-! ## The end of the range -/

theorem toNat_offset_add (offset : UInt64) (n : UInt32) :
    (offset + n.toUInt64).toNat = (offset.toNat + n.toNat) % 2 ^ 64 := by
  rw [UInt64.toNat_add, UInt32.toNat_toUInt64]

theorem endOffset?_eq (r : Request) :
    r.endOffset? = if r.stop < 2 ^ 64 then some (UInt64.ofNat r.stop) else none := by
  have sum : (r.offset + r.length.toUInt64).toNat = r.stop % 2 ^ 64 := toNat_offset_add _ _
  have offset : r.offset.toNat < 2 ^ 64 := r.offset.toNat_lt
  have length : r.length.toNat < 2 ^ 32 := r.length.toNat_lt
  -- a sum past 64 bits has lost 2 ^ 64, which is more than the length can make up for
  have wraps : r.offset + r.length.toUInt64 < r.offset ↔ ¬ r.stop < 2 ^ 64 := by
    rw [UInt64.lt_iff_toNat_lt, sum]
    simp only [stop]
    omega
  by_cases fits : r.stop < 2 ^ 64
  · have whole : r.offset + r.length.toUInt64 = UInt64.ofNat r.stop := by
      apply UInt64.toNat_inj.mp
      rw [sum, UInt64.toNat_ofNat']
    rw [endOffset?, if_neg (fun wrapped => wraps.mp wrapped fits), if_pos fits, whole]
  · rw [endOffset?, if_pos (wraps.mpr fits), if_neg fits]

theorem endOffset?_eq_none_iff : r.endOffset? = none ↔ 2 ^ 64 ≤ r.stop := by
  rw [endOffset?_eq]
  by_cases fits : r.stop < 2 ^ 64
  · simp only [if_pos fits, reduceCtorEq, false_iff]
    omega
  · simp only [if_neg fits, true_iff]
    omega

theorem endOffset?_eq_some_iff {stop : UInt64} :
    r.endOffset? = some stop ↔ stop.toNat = r.stop := by
  have bound : stop.toNat < 2 ^ 64 := stop.toNat_lt
  rw [endOffset?_eq]
  by_cases fits : r.stop < 2 ^ 64
  · rw [if_pos fits, Option.some.injEq, ← UInt64.toNat_inj, UInt64.toNat_ofNat_of_lt' fits]
    exact eq_comm
  · simp only [if_neg fits, reduceCtorEq, false_iff]
    omega

/-! ## Exports that hold the range -/

theorem fitsWithin_iff : r.fitsWithin size ↔ r.stop ≤ size.toNat := by
  have bound : size.toNat < 2 ^ 64 := size.toNat_lt
  rw [fitsWithin]
  cases found : r.endOffset? with
  | none =>
    have past := endOffset?_eq_none_iff.mp found
    simp only [Bool.false_eq_true, false_iff]
    omega
  | some stop => rw [← endOffset?_eq_some_iff.mp found, decide_eq_true_iff, UInt64.le_iff_toNat_le]

/-- The check that compares the length with the room behind the offset; it does not overflow
    either, since the offset is compared first. -/
theorem fitsWithin_iff_room :
    r.fitsWithin size ↔ r.offset ≤ size ∧ r.length.toUInt64 ≤ size - r.offset := by
  rw [fitsWithin_iff, stop, UInt64.le_iff_toNat_le, UInt64.le_iff_toNat_le, UInt32.toNat_toUInt64]
  by_cases inside : r.offset.toNat ≤ size.toNat
  · rw [UInt64.toNat_sub_of_le _ _ (UInt64.le_iff_toNat_le.mpr inside)]
    omega
  · omega

/-- A range with some byte in it fits exactly when all its bytes do. -/
theorem fitsWithin_iff_addresses (addressed : 0 < r.length) :
    r.fitsWithin size ↔ ∀ i, r.Addresses i → i < size.toNat := by
  have some : 0 < r.length.toNat := UInt32.lt_iff_toNat_lt.mp addressed
  rw [fitsWithin_iff]
  constructor
  · intro fits i inside
    exact Nat.lt_of_lt_of_le inside.2 fits
  · intro below
    have last := below (r.stop - 1) (by simp only [Addresses, stop]; omega)
    omega

theorem fitsWithin_split {a b : UInt32} (whole : a.toNat + b.toNat = r.length.toNat)
    (inside : r.offset.toNat + a.toNat < 2 ^ 64) :
    r.fitsWithin size ↔ (r.front a).fitsWithin size ∧ (r.behind a b).fitsWithin size := by
  have start : (r.offset + a.toUInt64).toNat = r.offset.toNat + a.toNat := by
    rw [toNat_offset_add, Nat.mod_eq_of_lt inside]
  simp only [fitsWithin_iff, stop, front, behind, start]
  omega

/-! ## The range checks are exact -/

/-- The checks answer as the numbers themselves would, for every request and every size of an
    export; so a larger export or a shorter range never turns a range that fits into one that does
    not, and a range can be checked piece by piece. -/
theorem range_exact (r : Request) :
    (r.endOffset? = none ↔ 2 ^ 64 ≤ r.stop) ∧
    (∀ stop, r.endOffset? = some stop ↔ stop.toNat = r.stop) ∧
    (∀ size, (r.fitsWithin size ↔ r.stop ≤ size.toNat) ∧
      (r.fitsWithin size ↔
        r.offset.toNat ≤ size.toNat ∧ r.length.toNat ≤ size.toNat - r.offset.toNat) ∧
      (r.fitsWithin size ↔ r.offset ≤ size ∧ r.length.toUInt64 ≤ size - r.offset) ∧
      (0 < r.length → (r.fitsWithin size ↔ ∀ i, r.Addresses i → i < size.toNat))) ∧
    (∀ size larger, size ≤ larger → r.fitsWithin size → r.fitsWithin larger) ∧
    (∀ size shorter, shorter ≤ r.length → r.fitsWithin size → (r.front shorter).fitsWithin size) ∧
    (∀ size a b, a.toNat + b.toNat = r.length.toNat → r.offset.toNat + a.toNat < 2 ^ 64 →
      (r.fitsWithin size ↔ (r.front a).fitsWithin size ∧ (r.behind a b).fitsWithin size)) ∧
    (2 ^ 64 ≤ r.stop → ∀ size, r.fitsWithin size = false) := by
  refine ⟨endOffset?_eq_none_iff, fun _ => endOffset?_eq_some_iff, ?_, ?_, ?_, ?_, ?_⟩
  · intro size
    refine ⟨fitsWithin_iff, ?_, fitsWithin_iff_room, fitsWithin_iff_addresses⟩
    rw [fitsWithin_iff, stop]
    omega
  · intro size larger grows fits
    rw [fitsWithin_iff] at fits ⊢
    exact Nat.le_trans fits (UInt64.le_iff_toNat_le.mp grows)
  · intro size shorter shrinks fits
    have less := UInt32.le_iff_toNat_le.mp shrinks
    rw [fitsWithin_iff] at fits ⊢
    simp only [stop, front] at fits ⊢
    omega
  · intro size a b whole inside
    exact fitsWithin_split whole inside
  · intro past size
    have bound : size.toNat < 2 ^ 64 := size.toNat_lt
    rw [← Bool.not_eq_true, fitsWithin_iff]
    omega

/-- At the very end of the largest export: the last range that fits, and the one a byte on, of
    which the first half still does. -/
theorem range_exact_at_limit :
    let smaller : UInt64 := 0xFFFFFFFFFFFFFF00
    let size : UInt64 := 0xFFFFFFFFFFFFFFFF
    let last : Request := ⟨Magic.request, 0, 0, 42, 0xFFFFFFFFFFFFFDFF, 512⟩
    let past : Request := { last with offset := 0xFFFFFFFFFFFFFE00 }
    last.fitsWithin size ∧ (0 < last.length ∧ ∀ i, last.Addresses i → i < size.toNat) ∧
      ((200 : UInt32) ≤ last.length ∧ (last.front 200).fitsWithin size) ∧
      (2 ^ 64 ≤ past.stop ∧ past.fitsWithin size = false) ∧
      (smaller ≤ size ∧ (past.front 256).fitsWithin smaller ∧ (past.front 256).fitsWithin size) ∧
      ¬ (past.behind 256 256).fitsWithin size := by
  intro smaller size last past
  obtain ⟨_, _, views, _, shorter, _, _⟩ := range_exact last
  obtain ⟨_, _, _, _, _, split, none⟩ := range_exact past
  obtain ⟨_, _, _, larger, _, _, _⟩ := range_exact (past.front 256)
  have fits : last.fitsWithin size := by decide
  have overflows : 2 ^ 64 ≤ past.stop := by decide
  have refused : past.fitsWithin size = false := none overflows size
  have halfSmaller : (past.front 256).fitsWithin smaller := by decide
  have half := larger smaller size (by decide) halfSmaller
  have halves := split size 256 256 (by decide) (by decide)
  refine ⟨fits, ⟨by decide, ((views size).2.2.2 (by decide)).mp fits⟩,
    ⟨by decide, shorter size 200 (by decide) fits⟩, ⟨overflows, refused⟩,
    ⟨by decide, halfSmaller, half⟩, ?_⟩
  intro other
  rw [halves.mpr ⟨half, other⟩] at refused
  cases refused

end Nbd.Request
