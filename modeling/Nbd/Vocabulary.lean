/-! # Finite vocabularies

The protocol speaks in small closed sets of terms: commands, options, error
codes, flags.  `Vocabulary` lists the terms of such a set in order of definition
and names each one.  `Code` adds the number that stands for a term on the wire.

Numbers are assigned without repetition (`Code.code_injective`), so a raw value
stands for at most one term and `Code.ofCode?` recovers it; every other raw value
stands for none.  These two facts together are `Code.ofCode?_eq_some_iff`.
-/

namespace Nbd

/-- A closed set of named terms. -/
class Vocabulary (α : Type) where
  /-- The terms, in order of definition. -/
  all : List α
  /-- The name a term is written by. -/
  name : α → String
  mem_all : ∀ a : α, a ∈ all

/-- The term of that exact name. -/
def Vocabulary.ofName? (α : Type) [Vocabulary α] (name : String) : Option α :=
  (all : List α).find? fun a => Vocabulary.name a == name

/-- A vocabulary whose terms travel as numbers of type `ω`. -/
class Code (α : Type) (ω : outParam Type) extends Vocabulary α where
  /-- The number that stands for a term. -/
  code : α → ω
  /-- No two terms share a number. -/
  distinct : ((Vocabulary.all : List α).map code).Nodup

namespace Code

variable {α ω : Type} [Code α ω]

/-- The term a raw number stands for, if it stands for one. -/
def ofCode? (α : Type) {ω : Type} [Code α ω] [DecidableEq ω] (raw : ω) : Option α :=
  (Vocabulary.all : List α).find? fun a => decide (code a = raw)

/-! ## Raw numbers and terms -/

theorem code_injective {a b : α} (h : code a = code b) : a = b := by
  have pairs := List.pairwise_map.mp (distinct (α := α))
  have symmetric : ∀ x ∈ (Vocabulary.all : List α), ∀ y ∈ (Vocabulary.all : List α),
      code x = code y → x = y := by
    generalize (Vocabulary.all : List α) = terms at pairs
    induction terms with
    | nil => intro x hx; cases hx
    | cons t ts ih =>
      obtain ⟨head, tail⟩ := List.pairwise_cons.mp pairs
      intro x hx y hy hxy
      cases hx with
      | head =>
        cases hy with
        | head => rfl
        | tail _ hy => exact absurd hxy (head y hy)
      | tail _ hx =>
        cases hy with
        | head => exact absurd hxy.symm (head x hx)
        | tail _ hy => exact ih tail x hx y hy hxy
  exact symmetric a (Vocabulary.mem_all a) b (Vocabulary.mem_all b) h

theorem ofCode?_eq_some_iff [DecidableEq ω] {raw : ω} {a : α} :
    ofCode? α raw = some a ↔ code a = raw := by
  constructor
  · intro h
    simpa using List.find?_some h
  · intro h
    cases found : ofCode? α raw with
    | none =>
      have absent := List.find?_eq_none.mp found a (Vocabulary.mem_all a)
      simp [h] at absent
    | some b =>
      have same : code b = raw := by simpa using List.find?_some found
      rw [code_injective (same.trans h.symm)]

@[simp] theorem ofCode?_code [DecidableEq ω] (a : α) : ofCode? α (code a) = some a :=
  ofCode?_eq_some_iff.mpr rfl

theorem ofCode?_eq_none_iff [DecidableEq ω] {raw : ω} :
    ofCode? α raw = none ↔ ∀ a : α, code a ≠ raw := by
  constructor
  · intro h a ha
    rw [ofCode?_eq_some_iff.mpr ha] at h
    cases h
  · intro h
    cases found : ofCode? α raw with
    | none => rfl
    | some a => exact absurd (ofCode?_eq_some_iff.mp found) (h a)

end Code

end Nbd
