import Nbd.FlagSet.Basic

/-! # Declared and undefined bits

A bit of a flag word is declared if some flag stands for it, and undefined otherwise.  The
operations on flag sets are defined on words; here they are read bit by bit, so that later
proofs speak of flags and undefined bits and not of masks.  A set without undefined bits is
known by its flags, and truncating a word gives the one set that has the word's flags and
nothing else (`FlagSet.restricts_iff`).
-/

namespace Nbd.FlagSet

variable {F : Type} [Flag F]

/-! ## Bits -/

theorem getLsbD_bit (f : F) (i : Nat) :
    (bit f).getLsbD i = decide (Flag.position f = i) := by
  have inside := Flag.position_lt f
  simp [bit, BitVec.getLsbD_twoPow, inside]

theorem getLsbD_ofList (flags : List F) (i : Nat) :
    (ofList flags).bits.getLsbD i = flags.any fun f => decide (Flag.position f = i) := by
  -- the word grows from any start, and keeps the bits it has
  have grows : ∀ word : BitVec (Flag.width F),
      (flags.foldl (fun word f => word ||| bit f) word).getLsbD i =
        (word.getLsbD i || flags.any fun f => decide (Flag.position f = i)) := by
    induction flags with
    | nil => simp
    | cons f flags ih =>
      intro word
      rw [List.foldl_cons, ih, BitVec.getLsbD_or, getLsbD_bit, List.any_cons, Bool.or_assoc]
  have started := grows 0#_
  rwa [BitVec.getLsbD_zero, Bool.false_or] at started

/-- Some flag stands for the bit. -/
def Declared (F : Type) [Flag F] (i : Nat) : Prop := ∃ f : F, Flag.position f = i

theorem getLsbD_all (i : Nat) : (all : FlagSet F).bits.getLsbD i = true ↔ Declared F i := by
  rw [all, getLsbD_ofList, List.any_eq_true]
  constructor
  · rintro ⟨f, _, placed⟩
    exact ⟨f, of_decide_eq_true placed⟩
  · rintro ⟨f, placed⟩
    exact ⟨f, Vocabulary.mem_all f, decide_eq_true placed⟩

/-- The bits of a word that flags of `F` stand for, as a number. -/
def declaredBits (F : Type) [Flag F] : Nat := (all : FlagSet F).bits.toNat

theorem testBit_declaredBits (F : Type) [Flag F] (i : Nat) :
    (declaredBits F).testBit i = true ↔ Declared F i :=
  getLsbD_all i

theorem undefined_eq_zero_iff {s : FlagSet F} :
    s.undefined = 0#_ ↔ ∀ i, s.bits.getLsbD i = true → Declared F i := by
  constructor
  · intro none i set
    have clear := congrArg (BitVec.getLsbD · i) none
    have inside := BitVec.lt_of_getLsbD set
    simp only [undefined, BitVec.getLsbD_and, BitVec.getLsbD_not, set, inside, decide_true,
      Bool.true_and, BitVec.getLsbD_zero, Bool.not_eq_false'] at clear
    exact (getLsbD_all i).mp clear
  · intro declared
    apply BitVec.eq_of_getLsbD_eq
    intro i inside
    rw [undefined, BitVec.getLsbD_and, BitVec.getLsbD_not, BitVec.getLsbD_zero]
    cases set : s.bits.getLsbD i with
    | false => rfl
    | true => simp [(getLsbD_all i).mpr (declared i set)]

/-! ## Truncation -/

/-- `r` has the flags of `s` and no undefined bit. -/
structure Restricts (r s : FlagSet F) : Prop where
  flags : ∀ f, r.has f = s.has f
  undefined : r.undefined = 0#_

theorem getLsbD_truncate (word : BitVec (Flag.width F)) (i : Nat) :
    (truncate word : FlagSet F).bits.getLsbD i = true ↔ word.getLsbD i = true ∧ Declared F i := by
  rw [truncate, BitVec.getLsbD_and, Bool.and_eq_true, getLsbD_all]

theorem toNat_truncate (F : Type) [Flag F] (word : BitVec (Flag.width F)) :
    (truncate word : FlagSet F).bits.toNat = word.toNat &&& declaredBits F :=
  BitVec.toNat_and ..

theorem truncate_restricts (s : FlagSet F) : (truncate s.bits).Restricts s where
  flags f := by
    have declared : Declared F (Flag.position f) := ⟨f, rfl⟩
    rw [Bool.eq_iff_iff, has, getLsbD_truncate, and_iff_left declared]
    rfl
  undefined := undefined_eq_zero_iff.mpr fun i set => ((getLsbD_truncate _ i).mp set).2

theorem restricts_iff {r s : FlagSet F} : r.Restricts s ↔ r = truncate s.bits := by
  constructor
  · intro restricts
    apply FlagSet.ext
    apply BitVec.eq_of_getLsbD_eq
    intro i _
    rw [Bool.eq_iff_iff, getLsbD_truncate]
    -- a bit that is set on either side is declared, and its flag is in both sets or in neither
    constructor
    · intro set
      obtain ⟨f, rfl⟩ := undefined_eq_zero_iff.mp restricts.undefined i set
      exact ⟨(restricts.flags f).symm.trans set, f, rfl⟩
    · rintro ⟨set, f, rfl⟩
      exact (restricts.flags f).trans set
  · rintro rfl
    exact truncate_restricts s

theorem truncate_eq_self {s : FlagSet F} (none : s.undefined = 0#_) : truncate s.bits = s :=
  (restricts_iff.mp ⟨fun _ => rfl, none⟩).symm

theorem undefined_truncate (word : BitVec (Flag.width F)) :
    (truncate word : FlagSet F).undefined = 0#_ :=
  (truncate_restricts ⟨word⟩).undefined

theorem truncate_truncate (word : BitVec (Flag.width F)) :
    truncate (truncate word : FlagSet F).bits = (truncate word : FlagSet F) :=
  truncate_eq_self (undefined_truncate word)

end Nbd.FlagSet
