import Nbd.FlagSet.Basic

/-! # Editing a flag set

An `Edit` is one operation on a flag set held in a variable: some replace the
set, some change part of it and some only look at it.  `FlagSet.edit` gives the
set afterwards together with what the operation reports, and `FlagSet.edits` runs
a sequence of them.

An edit that is refused (an undefined bit where none is allowed, a name nobody
declared) reports `false` and leaves the set as it was.
-/

namespace Nbd

/-- One operation on a flag set.  Word arguments are raw: a bit without a name is
    an ordinary bit of the argument. -/
inductive Edit (F : Type) [Flag F] where
  /-- Replace the set, unless the word has an undefined bit. -/
  | replaceChecked (word : BitVec (Flag.width F))
  /-- Replace the set by the declared bits of the word. -/
  | replaceTruncated (word : BitVec (Flag.width F))
  | replace (word : BitVec (Flag.width F))
  /-- Replace the set by the flag of that name, if it is declared. -/
  | replaceNamed (name : String)
  | collect (words : List (BitVec (Flag.width F)))
  | clear
  | fill
  | insert (word : BitVec (Flag.width F))
  | remove (word : BitVec (Flag.width F))
  | toggle (word : BitVec (Flag.width F))
  | intersect (word : BitVec (Flag.width F))
  | assign (word : BitVec (Flag.width F)) (on : Bool)
  | complement
  | contains (word : BitVec (Flag.width F))
  | intersects (word : BitVec (Flag.width F))
  | equals (word : BitVec (Flag.width F))
  | parts

inductive Edit.Report (F : Type) [Flag F] where
  | done
  | verdict (holds : Bool)
  | parts (words : List (BitVec (Flag.width F)))

namespace FlagSet

variable {F : Type} [Flag F]

/-- Takes the replacement if there is one and reports whether there was. -/
def replaceWith (s : FlagSet F) (replacement : Option (FlagSet F)) : FlagSet F × Edit.Report F :=
  match replacement with
  | some t => (t, .verdict true)
  | none => (s, .verdict false)

def edit (s : FlagSet F) : Edit F → FlagSet F × Edit.Report F
  | .replaceChecked word => s.replaceWith (ofBits? word)
  | .replaceTruncated word => (truncate word, .done)
  | .replace word => (⟨word⟩, .done)
  | .replaceNamed name => s.replaceWith (ofName? name)
  | .collect words => (unions (words.map FlagSet.mk), .done)
  | .clear => (empty, .done)
  | .fill => (all, .done)
  | .insert word => (s.union ⟨word⟩, .done)
  | .remove word => (s.difference ⟨word⟩, .done)
  | .toggle word => (s.symmetricDifference ⟨word⟩, .done)
  | .intersect word => (s.intersection ⟨word⟩, .done)
  | .assign word on => (s.assign ⟨word⟩ on, .done)
  | .complement => (s.complement, .done)
  | .contains word => (s, .verdict (s.contains ⟨word⟩))
  | .intersects word => (s, .verdict (s.intersects ⟨word⟩))
  | .equals word => (s, .verdict (decide (s = ⟨word⟩)))
  | .parts => (s, .parts s.parts)

/-- Runs edits in order, keeping the set and the report after each. -/
def edits (s : FlagSet F) : List (Edit F) → List (FlagSet F × Edit.Report F)
  | [] => []
  | e :: rest => let after := s.edit e; after :: after.1.edits rest

end FlagSet

end Nbd
