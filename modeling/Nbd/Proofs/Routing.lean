import Nbd.Message.Basic

/-! # Routing

The two ways from a kind to its codec agree: whatever `Kind.dispatch` and
`Message.withCodec` do for a kind at run time is what the codec of `Kind.Body` does,
with the value put into a message afterwards or taken out of one before.
-/

namespace Nbd

theorem Kind.dispatch_eq {F : Type → Type} [Functor F] (k : Kind)
    (operation : (α : Type) → [Codec α] → F α) :
    k.dispatch operation = Message.ofBody k <$> operation k.Body := by
  cases k with
  | word size => cases size <;> rfl
  | _ => rfl

theorem Message.withCodec_eq {β : Type} (m : Message)
    (operation : {α : Type} → [Codec α] → α → β) : m.withCodec operation = operation m.body := by
  cases m with
  | word w => cases w <;> rfl
  | _ => rfl

theorem Message.withCodec_ofBody {β : Type} (k : Kind) (v : k.Body)
    (operation : {α : Type} → [Codec α] → α → β) :
    (ofBody k v).withCodec operation = operation v := by
  cases k with
  | word size => cases size <;> rfl
  | _ => rfl

theorem Kind.size_eq (k : Kind) : k.size = Codec.width k.Body := by
  cases k with
  | word size => cases size <;> rfl
  | _ => rfl

/-- The name under which a kind's codec logs. -/
def Kind.codecName (k : Kind) : String := Codec.name k.Body

namespace Message

theorem encode_eq_body (m : Message) : m.encode = Codec.encode m.body := m.withCodec_eq _

theorem get_run_eq (k : Kind) (input : Bytes) :
    (get k).run input =
      ((Codec.get (α := k.Body)).run input).map fun (v, rest) => (ofBody k v, rest) := by
  rw [get, Kind.dispatch_eq, StateT.run_map]
  rfl

/-- Decoding is taking a message off the front, with the shortage reported. -/
theorem decode_eq (k : Kind) (input : Bytes) :
    decode k input = match (get k).run input with
      | some (m, _) => .quiet (.ok m)
      | none => ⟨.error (.truncated k.size input.length),
          [.truncated k.codecName k.size input.length]⟩ := by
  rw [decode, Kind.dispatch_eq, get_run_eq, Codec.decode, Kind.size_eq]
  cases (Codec.get (α := k.Body)).run input with
  | none => rfl
  | some taken => rfl

end Message

end Nbd
