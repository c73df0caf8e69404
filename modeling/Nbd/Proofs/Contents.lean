import Mathlib.Data.List.Nodup
import Mathlib.Order.BooleanAlgebra.Set
import Nbd.Proofs.Flags

/-! # What a flag set contains

A flag set is held as a word but meant as two sets: the flags that are set in it, and the
undefined bits that it carries along.  `FlagSet.contents` takes the word apart into the two, and
every pair of sets is the contents of exactly one word (`contents_bijective`).  Here each
operation and each test on words is read as one on these sets.  Most treat flags and undefined
bits alike (`contents_both`); truncation and the complement are those that do not.
-/

namespace Nbd

/-! ## Flags and undefined bits -/

/-- A bit of the word that no flag of `F` stands for. -/
def UndefinedBit (F : Type) [Flag F] : Type :=
  { i : Fin (Flag.width F) // ¬ FlagSet.Declared F i }

/-- A set of flags and a set of undefined bits. -/
@[ext]
structure Contents (F : Type) [Flag F] where
  named : Set F
  undefined : Set (UndefinedBit F)

variable {F : Type} [Flag F]

theorem Flag.position_injective {f g : F} (same : Flag.position f = Flag.position g) : f = g := by
  have distinct : ((Vocabulary.all : List F).map Flag.position).Nodup :=
    Flag.ascending.imp Nat.ne_of_lt
  exact List.inj_on_of_nodup_map distinct (Vocabulary.mem_all f) (Vocabulary.mem_all g) same

namespace Contents

/-- Does the same to the flags and to the undefined bits. -/
def both (op : {α : Type} → Set α → Set α → Set α) (c d : Contents F) : Contents F :=
  ⟨op c.named d.named, op c.undefined d.undefined⟩

instance : EmptyCollection (Contents F) := ⟨⟨∅, ∅⟩⟩

instance : Union (Contents F) := ⟨both fun x y => x ∪ y⟩

instance : Inter (Contents F) := ⟨both fun x y => x ∩ y⟩

instance : SDiff (Contents F) := ⟨both fun x y => x \ y⟩

/-- What is in one of the two and not in the other. -/
def exclusive (c d : Contents F) : Contents F := c \ d ∪ d \ c

instance : HasSubset (Contents F) := ⟨fun c d => c.named ⊆ d.named ∧ c.undefined ⊆ d.undefined⟩

/-- Some flag or some undefined bit is in both. -/
def Overlaps (c d : Contents F) : Prop :=
  (c.named ∩ d.named).Nonempty ∨ (c.undefined ∩ d.undefined).Nonempty

/-- All that is in some of a number of contents. -/
def gather (contents : List (Contents F)) : Contents F :=
  ⟨{f | ∃ c ∈ contents, f ∈ c.named}, {i | ∃ c ∈ contents, i ∈ c.undefined}⟩

end Contents

namespace FlagSet

variable {s t : FlagSet F}

/-- The flags that are set, and the undefined bits. -/
def contents (s : FlagSet F) : Contents F where
  named := {f | s.bits.getLsbD (Flag.position f) = true}
  undefined := {i | s.bits.getLsbD i.val = true}

theorem contents_eq_iff {c : Contents F} :
    s.contents = c ↔
      (∀ f, s.bits.getLsbD (Flag.position f) = true ↔ f ∈ c.named) ∧
        ∀ i : UndefinedBit F, s.bits.getLsbD i.val = true ↔ i ∈ c.undefined := by
  rw [Contents.ext_iff, Set.ext_iff, Set.ext_iff]
  rfl

/-! ## Words and their contents -/

theorem contents_injective : Function.Injective (contents : FlagSet F → Contents F) := by
  intro s t same
  obtain ⟨named, undefined⟩ := contents_eq_iff.mp same
  apply FlagSet.ext
  apply BitVec.eq_of_getLsbD_eq
  intro i inside
  rw [Bool.eq_iff_iff]
  by_cases declared : Declared F i
  · obtain ⟨f, rfl⟩ := declared
    exact named f
  · exact undefined ⟨⟨i, inside⟩, declared⟩

open Classical in
theorem contents_surjective : Function.Surjective (contents : FlagSet F → Contents F) := by
  intro c
  -- the word that has the bits of the flags and the undefined bits asked for
  let chosen (i : Fin (Flag.width F)) : Bool :=
    decide ((∃ f ∈ c.named, Flag.position f = i) ∨ ∃ j ∈ c.undefined, j.val = i)
  let word := (BitVec.iunfoldr (fun i _ => ((), chosen i)) ()).2
  have bits : ∀ i : Fin (Flag.width F), word.getLsbD i = chosen i := fun i =>
    BitVec.iunfoldr_getLsbD (fun _ => ()) i fun _ => rfl
  refine ⟨⟨word⟩, contents_eq_iff.mpr ⟨?_, ?_⟩⟩
  · intro f
    rw [bits ⟨Flag.position f, Flag.position_lt f⟩, decide_eq_true_iff]
    constructor
    · rintro (⟨g, member, same⟩ | ⟨j, _, same⟩)
      · rwa [← Flag.position_injective same]
      · exact absurd ⟨f, (congrArg Fin.val same).symm⟩ j.property
    · intro member
      exact .inl ⟨f, member, rfl⟩
  · intro i
    rw [bits i.val, decide_eq_true_iff]
    constructor
    · rintro (⟨f, _, same⟩ | ⟨j, member, same⟩)
      · exact absurd ⟨f, same⟩ i.property
      · rwa [← Subtype.ext same]
    · intro member
      exact .inr ⟨i, member, rfl⟩

theorem contents_bijective : Function.Bijective (contents : FlagSet F → Contents F) :=
  ⟨contents_injective, contents_surjective⟩

/-! ## Operations on both sets alike -/

/-- An operation that goes bit by bit does the same to the flags and to the undefined bits. -/
theorem contents_both {op : {α : Type} → Set α → Set α → Set α} (logic : Prop → Prop → Prop)
    {r : FlagSet F} (mem : ∀ {α : Type} (x y : Set α) (a : α), a ∈ op x y ↔ logic (a ∈ x) (a ∈ y))
    (bits : ∀ i, r.bits.getLsbD i = true ↔
      logic (s.bits.getLsbD i = true) (t.bits.getLsbD i = true)) :
    r.contents = s.contents.both op t.contents :=
  contents_eq_iff.mpr
    ⟨fun f => (bits _).trans (mem s.contents.named t.contents.named f).symm,
      fun i => (bits _).trans (mem s.contents.undefined t.contents.undefined i).symm⟩

theorem contents_union : (s.union t).contents = s.contents ∪ t.contents := by
  apply contents_both Or fun _ _ _ => Iff.rfl
  intro i
  rw [union, BitVec.getLsbD_or, Bool.or_eq_true]

theorem contents_intersection : (s.intersection t).contents = s.contents ∩ t.contents := by
  apply contents_both And fun _ _ _ => Iff.rfl
  intro i
  rw [intersection, BitVec.getLsbD_and, Bool.and_eq_true]

theorem contents_difference : (s.difference t).contents = s.contents \ t.contents := by
  apply contents_both (fun p q => p ∧ ¬ q) fun _ _ _ => Iff.rfl
  intro i
  rw [difference, BitVec.getLsbD_and, BitVec.getLsbD_not, Bool.and_eq_true]
  refine and_congr_right fun set => ?_
  rw [decide_eq_true (BitVec.lt_of_getLsbD set), Bool.true_and, Bool.not_eq_true',
    Bool.not_eq_true]

theorem contents_symmetricDifference :
    (s.symmetricDifference t).contents = s.contents.exclusive t.contents := by
  change _ = Contents.both (fun x y => x \ y ∪ y \ x) _ _
  apply contents_both (fun p q => p ∧ ¬ q ∨ q ∧ ¬ p) fun _ _ _ => Iff.rfl
  intro i
  rw [symmetricDifference, BitVec.getLsbD_xor]
  cases s.bits.getLsbD i <;> cases t.bits.getLsbD i <;> decide

theorem getLsbD_unions (sets : List (FlagSet F)) (i : Nat) :
    (unions sets).bits.getLsbD i = true ↔ ∃ s ∈ sets, s.bits.getLsbD i = true := by
  -- the union grows from any start, and keeps the bits it has
  have grows : ∀ start : FlagSet F, (sets.foldl union start).bits.getLsbD i = true ↔
      start.bits.getLsbD i = true ∨ ∃ s ∈ sets, s.bits.getLsbD i = true := by
    induction sets with
    | nil => simp
    | cons s sets ih =>
      intro start
      rw [List.foldl_cons, ih, union, BitVec.getLsbD_or, Bool.or_eq_true, or_assoc,
        List.exists_mem_cons_iff]
  rw [unions, grows, empty, BitVec.getLsbD_zero]
  exact or_iff_right Bool.false_ne_true

theorem contents_unions (sets : List (FlagSet F)) :
    (unions sets).contents = Contents.gather (sets.map contents) := by
  have gathered (p : Contents F → Prop) :
      (∃ c ∈ sets.map contents, p c) ↔ ∃ s ∈ sets, p s.contents := by
    simp
  exact contents_eq_iff.mpr
    ⟨fun f => (getLsbD_unions sets _).trans (gathered fun c => f ∈ c.named).symm,
      fun i => (getLsbD_unions sets _).trans (gathered fun c => i ∈ c.undefined).symm⟩

/-! ## Flags alone -/

theorem contents_empty : (empty : FlagSet F).contents = ∅ := by
  have clear (i : Nat) : (empty : FlagSet F).bits.getLsbD i = true ↔ False := by
    rw [empty, BitVec.getLsbD_zero]
    exact iff_of_false Bool.false_ne_true id
  exact contents_eq_iff.mpr ⟨fun f => clear _, fun i => clear _⟩

theorem contents_truncate (word : BitVec (Flag.width F)) :
    (truncate word : FlagSet F).contents = ⟨(⟨word⟩ : FlagSet F).contents.named, ∅⟩ := by
  refine contents_eq_iff.mpr ⟨?_, ?_⟩
  · intro f
    rw [getLsbD_truncate]
    exact and_iff_left ⟨f, rfl⟩
  · intro i
    rw [getLsbD_truncate]
    exact iff_of_false (fun kept => i.property kept.2) (Set.notMem_empty i)

theorem contents_all : (all : FlagSet F).contents = ⟨Set.univ, ∅⟩ := by
  refine contents_eq_iff.mpr ⟨?_, ?_⟩
  · intro f
    rw [getLsbD_all]
    exact iff_of_true ⟨f, rfl⟩ (Set.mem_univ f)
  · intro i
    rw [getLsbD_all]
    exact iff_of_false i.property (Set.notMem_empty i)

theorem contents_complement : s.complement.contents = ⟨s.contents.namedᶜ, ∅⟩ := by
  rw [complement, contents_truncate]
  refine Contents.ext (Set.ext fun f => ?_) rfl
  change (~~~s.bits).getLsbD (Flag.position f) = true ↔ ¬ s.bits.getLsbD (Flag.position f) = true
  rw [BitVec.getLsbD_not, decide_eq_true (Flag.position_lt f), Bool.true_and, Bool.not_eq_true',
    Bool.not_eq_true]

theorem contents_singleton (f : F) : (singleton f).contents = ⟨{f}, ∅⟩ := by
  refine contents_eq_iff.mpr ⟨?_, ?_⟩
  · intro g
    rw [singleton, getLsbD_bit, decide_eq_true_iff]
    constructor
    · intro same
      exact (Flag.position_injective same).symm
    · rintro rfl
      rfl
  · intro i
    rw [singleton, getLsbD_bit, decide_eq_true_iff]
    exact iff_of_false (fun same => i.property ⟨f, same⟩) (Set.notMem_empty i)

/-! ## Undefined bits -/

theorem undefined_eq_zero_iff_contents : s.undefined = 0#_ ↔ s.contents.undefined = ∅ := by
  rw [undefined_eq_zero_iff, Set.eq_empty_iff_forall_notMem]
  constructor
  · intro declared i set
    exact i.property (declared i.val set)
  · intro none i set
    by_contra undeclared
    exact none ⟨⟨i, BitVec.lt_of_getLsbD set⟩, undeclared⟩ set

/-- The word of all undefined bits has them and no flag. -/
theorem contents_undefined : (⟨s.undefined⟩ : FlagSet F).contents = ⟨∅, s.contents.undefined⟩ := by
  have without : (⟨s.undefined⟩ : FlagSet F) = s.difference all := rfl
  rw [without, contents_difference, contents_all]
  exact Contents.ext (Set.sdiff_univ _) Set.sdiff_empty

/-! ## Tests -/

theorem isEmpty_iff : s.isEmpty = true ↔ s.contents = ∅ := by
  rw [isEmpty, beq_iff_eq, ← contents_empty, contents_injective.eq_iff, FlagSet.ext_iff]
  rfl

theorem isAll_iff : s.isAll = true ↔ s.contents.named = Set.univ := by
  have filled : all.union s = s ↔ s.contents.named = Set.univ := by
    rw [← contents_injective.eq_iff, contents_union, contents_all, Contents.ext_iff]
    change Set.univ ∪ _ = _ ∧ ∅ ∪ _ = _ ↔ _
    rw [Set.univ_union, Set.empty_union, eq_comm, and_iff_left rfl]
  rw [isAll, beq_iff_eq, ← filled, FlagSet.ext_iff]
  rfl

theorem contains_iff : s.contains t = true ↔ t.contents ⊆ s.contents := by
  have absorbed : s.intersection t = t ↔ t.contents ⊆ s.contents := by
    rw [← contents_injective.eq_iff, contents_intersection, Contents.ext_iff]
    exact and_congr Set.inter_eq_right Set.inter_eq_right
  rw [contains, beq_iff_eq, ← absorbed, FlagSet.ext_iff]
  rfl

theorem intersects_iff : s.intersects t = true ↔ s.contents.Overlaps t.contents := by
  have disjoint : s.intersection t = empty ↔ ¬ s.contents.Overlaps t.contents := by
    rw [← contents_injective.eq_iff, contents_intersection, contents_empty, Contents.ext_iff,
      Contents.Overlaps, not_or, Set.not_nonempty_iff_eq_empty, Set.not_nonempty_iff_eq_empty]
    rfl
  rw [intersects, Bool.not_eq_true', beq_eq_false_iff_ne, ← not_iff_not, ← disjoint,
    FlagSet.ext_iff, ne_eq, not_not]
  rfl

/-! ## Members -/

theorem mem_members {f : F} : f ∈ s.members ↔ f ∈ s.contents.named := by
  rw [members, List.mem_filter]
  exact and_iff_right (Vocabulary.mem_all f)

theorem members_ascending : (s.members.map Flag.position).Pairwise (· < ·) :=
  Flag.ascending.sublist (List.filter_sublist.map Flag.position)

end FlagSet

end Nbd
