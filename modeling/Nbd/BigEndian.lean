/-! # Big-endian byte strings

Every field of a message is an unsigned number in network byte order: the most
significant byte first, in exactly as many bytes as the field is wide.
`bigEndian w n` writes a number in `w` bytes and `ofBigEndian` reads a byte
string of any length back.

The two recursions split off the most significant byte, so a byte at distance
`k` from the end weighs `256 ^ k` on both sides.  They are inverse to each other
on numbers below `256 ^ w` (`ofBigEndian_bigEndian`) and on byte strings of
length `w` (`bigEndian_ofBigEndian`).
-/

namespace Nbd

-- powers in this file are `Nat`'s own, whatever algebra an importer brings along
attribute [local instance(2000)] instPowNat

/-- A byte string. -/
abbrev Bytes := List UInt8

/-- The low `width` bytes of `n`, most significant first. -/
def bigEndian : (width : Nat) → (n : Nat) → Bytes
  | 0, _ => []
  | width + 1, n => UInt8.ofNat (n / 256 ^ width) :: bigEndian width n

/-- The number a byte string spells, most significant byte first. -/
def ofBigEndian : Bytes → Nat
  | [] => 0
  | b :: bs => b.toNat * 256 ^ bs.length + ofBigEndian bs

/-! ## Widths and ranges -/

@[simp] theorem length_bigEndian (width n : Nat) : (bigEndian width n).length = width := by
  induction width with
  | zero => rfl
  | succ width ih => simp [bigEndian, ih]

theorem ofBigEndian_lt (bs : Bytes) : ofBigEndian bs < 256 ^ bs.length := by
  induction bs with
  | nil => simp [ofBigEndian]
  | cons b bs ih =>
    have byte : b.toNat ≤ 255 := by have := b.toNat_lt; omega
    have scaled : b.toNat * 256 ^ bs.length ≤ 255 * 256 ^ bs.length :=
      Nat.mul_le_mul_right _ byte
    simp only [ofBigEndian, List.length_cons, Nat.pow_succ]
    omega

/-! ## The two directions -/

/-- Reading drops whatever part of the number did not fit into the bytes. -/
theorem ofBigEndian_bigEndian_mod (width n : Nat) :
    ofBigEndian (bigEndian width n) = n % 256 ^ width := by
  induction width with
  | zero => simp [bigEndian, ofBigEndian, Nat.mod_one]
  | succ width ih =>
    have digit : (UInt8.ofNat (n / 256 ^ width)).toNat = n / 256 ^ width % 256 := by simp
    rw [bigEndian, ofBigEndian, length_bigEndian, ih, digit, Nat.pow_succ, Nat.mod_mul,
      Nat.mul_comm, Nat.add_comm]

theorem ofBigEndian_bigEndian {width n : Nat} (h : n < 256 ^ width) :
    ofBigEndian (bigEndian width n) = n := by
  rw [ofBigEndian_bigEndian_mod, Nat.mod_eq_of_lt h]

/-- Digits above the written width do not matter. -/
theorem bigEndian_add_mul (width n k : Nat) :
    bigEndian width (k * 256 ^ width + n) = bigEndian width n := by
  induction width generalizing k with
  | zero => rfl
  | succ width ih =>
    have pull : k * 256 ^ (width + 1) + n = (k * 256) * 256 ^ width + n := by
      rw [Nat.pow_succ, Nat.mul_assoc, Nat.mul_comm 256]
    have quotient : (k * 256 ^ (width + 1) + n) / 256 ^ width = n / 256 ^ width + k * 256 := by
      rw [pull, Nat.add_comm, Nat.add_mul_div_right _ _ (Nat.pow_pos (by decide))]
    have digit : UInt8.ofNat (n / 256 ^ width + k * 256) = UInt8.ofNat (n / 256 ^ width) := by
      apply UInt8.toNat_inj.mp
      simp [UInt8.toNat_ofNat']
    simp only [bigEndian, quotient, digit]
    rw [pull, ih]

theorem bigEndian_ofBigEndian (bs : Bytes) : bigEndian bs.length (ofBigEndian bs) = bs := by
  induction bs with
  | nil => rfl
  | cons b bs ih =>
    have rest : ofBigEndian bs < 256 ^ bs.length := ofBigEndian_lt bs
    have quotient : (b.toNat * 256 ^ bs.length + ofBigEndian bs) / 256 ^ bs.length = b.toNat := by
      rw [Nat.add_comm, Nat.add_mul_div_right _ _ (Nat.pow_pos (by decide)),
        Nat.div_eq_of_lt rest, Nat.zero_add]
    simp only [List.length_cons, bigEndian, ofBigEndian, quotient, bigEndian_add_mul, ih]
    simp

end Nbd
