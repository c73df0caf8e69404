import Nbd.Vocabulary

/-! # Flag sets

A flag field is a word in which some bits have been given a name and a meaning.
`Flag` declares the names: each is one bit of the word, at a position of its own.
A `FlagSet` holds the whole word, so bits without a name survive until an
operation drops them.

Which operations drop them is the point of this module.  The set operations act
on every bit of the word alike (`union`, `difference`, `symmetricDifference`,
`intersection`); `truncate` and `complement` keep declared bits only; `ofBits?`
refuses a word with any other bit.
-/

namespace Nbd

/-- A vocabulary of flags, each a single bit of a word `width` bits wide. -/
class Flag (F : Type) extends Vocabulary F where
  width : Nat
  /-- The bit a flag stands for, counted from the least significant one. -/
  position : F → Nat
  position_lt : ∀ f, position f < width
  /-- The flags are listed from the lowest bit to the highest, so no two share a bit. -/
  ascending : ((Vocabulary.all : List F).map position).Pairwise (· < ·)

/-- A word of flags, including bits that no flag of `F` names. -/
@[ext]
structure FlagSet (F : Type) [Flag F] where
  bits : BitVec (Flag.width F)

namespace FlagSet

variable {F : Type} [Flag F]

instance : DecidableEq (FlagSet F) := fun _ _ =>
  decidable_of_iff _ FlagSet.ext_iff.symm

/-! ## Single flags -/

def bit (f : F) : BitVec (Flag.width F) :=
  BitVec.twoPow (Flag.width F) (Flag.position f)

def has (s : FlagSet F) (f : F) : Bool :=
  s.bits.getLsbD (Flag.position f)

/-- The declared flags that are set, from the lowest bit to the highest. -/
def members (s : FlagSet F) : List F :=
  (Vocabulary.all : List F).filter s.has

def ofList (flags : List F) : FlagSet F :=
  ⟨flags.foldl (fun word f => word ||| bit f) 0#_⟩

def singleton (f : F) : FlagSet F := ⟨bit f⟩

def ofName? (name : String) : Option (FlagSet F) :=
  (Vocabulary.ofName? F name).map singleton

/-! ## Declared and undefined bits -/

def empty : FlagSet F := ⟨0#_⟩

def all : FlagSet F := ofList Vocabulary.all

/-- The bits that no flag names. -/
def undefined (s : FlagSet F) : BitVec (Flag.width F) :=
  s.bits &&& ~~~(all : FlagSet F).bits

def truncate (word : BitVec (Flag.width F)) : FlagSet F :=
  ⟨word &&& (all : FlagSet F).bits⟩

def ofBits? (word : BitVec (Flag.width F)) : Option (FlagSet F) :=
  if (⟨word⟩ : FlagSet F).undefined = 0#_ then some ⟨word⟩ else none

/-! ## Set operations -/

def union (s t : FlagSet F) : FlagSet F := ⟨s.bits ||| t.bits⟩

def intersection (s t : FlagSet F) : FlagSet F := ⟨s.bits &&& t.bits⟩

/-- Clears the bits of `t`, and no others. -/
def difference (s t : FlagSet F) : FlagSet F := ⟨s.bits &&& ~~~t.bits⟩

def symmetricDifference (s t : FlagSet F) : FlagSet F := ⟨s.bits ^^^ t.bits⟩

/-- The declared flags that are not set; undefined bits are dropped either way. -/
def complement (s : FlagSet F) : FlagSet F := truncate (~~~s.bits)

/-- Adds the bits of `t` if `on`, and clears them otherwise. -/
def assign (s t : FlagSet F) (on : Bool) : FlagSet F :=
  if on then s.union t else s.difference t

def unions (sets : List (FlagSet F)) : FlagSet F := sets.foldl union empty

/-! ## Tests -/

def isEmpty (s : FlagSet F) : Bool := s.bits == 0#_

/-- Every declared flag is set, whatever else is. -/
def isAll (s : FlagSet F) : Bool := (all : FlagSet F).bits ||| s.bits == s.bits

def contains (s t : FlagSet F) : Bool := s.bits &&& t.bits == t.bits

def intersects (s t : FlagSet F) : Bool := !(s.bits &&& t.bits == 0#_)

/-- The set taken apart: one word for each declared flag that is set, then one
    more for all undefined bits together if there are any. -/
def parts (s : FlagSet F) : List (BitVec (Flag.width F)) :=
  s.members.map bit ++ if s.undefined = 0#_ then [] else [s.undefined]

end FlagSet

end Nbd
