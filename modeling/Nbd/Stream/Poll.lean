/-! # Suspension

In suspending mode a call can answer that it is not ready.  It has then had no
effect and is made again later, at the very point where it was made before.
-/

namespace Nbd

/-- What a call that may suspend answers. -/
inductive Poll (α : Type) where
  | ready (value : α)
  | pending
  deriving DecidableEq, Repr

namespace Poll

variable {α : Type}

def ready? : Poll α → Option α
  | .ready value => some value
  | .pending => none

/-- A script without its suspensions. -/
def settled (script : List (Poll α)) : List α := script.filterMap ready?

@[simp] theorem settled_nil : settled ([] : List (Poll α)) = [] := rfl

@[simp] theorem settled_pending (rest : List (Poll α)) :
    settled (.pending :: rest) = settled rest := rfl

@[simp] theorem settled_ready (value : α) (rest : List (Poll α)) :
    settled (.ready value :: rest) = value :: settled rest := rfl

@[simp] theorem settled_append (first second : List (Poll α)) :
    settled (first ++ second) = settled first ++ settled second := by
  simp [settled]

@[simp] theorem settled_map_ready (script : List α) : settled (script.map .ready) = script := by
  induction script with
  | nil => rfl
  | cons value rest ih => simp [ih]

end Poll

end Nbd
