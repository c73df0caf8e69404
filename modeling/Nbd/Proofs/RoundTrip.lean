import Nbd.Proofs.Layout

/-! # Encoding and decoding undo each other

For every kind, encoding is a one-to-one match between the messages of that kind and
the byte strings of its width, and decoding is the way back: it ignores what follows
the message and refuses input that is too short, saying how short.
-/

namespace Nbd.Message

theorem decode_encode_append (m : Message) (trailing : Bytes) :
    decode m.kind (m.encode ++ trailing) = .quiet (.ok m) := by
  have taken : (get m.kind).run (m.encode ++ trailing) = some (m, trailing) :=
    get_eq_some_iff.mpr ⟨rfl, rfl⟩
  rw [decode_eq, taken]

theorem decode_encode (m : Message) : decode m.kind m.encode = .quiet (.ok m) := by
  simpa using m.decode_encode_append []

theorem decode_front {m : Message} {input : Bytes} (front : m.encode = input.take m.kind.size) :
    decode m.kind input = .quiet (.ok m) := by
  have whole : m.encode ++ input.drop m.kind.size = input := by
    rw [front, List.take_append_drop]
  rw [← whole, decode_encode_append]

theorem decode_eq_ok_iff {k : Kind} {input : Bytes} {m : Message} :
    (decode k input).result = .ok m ↔ m.kind = k ∧ m.encode = input.take k.size := by
  constructor
  · intro decoded
    rw [decode_eq] at decoded
    split at decoded
    · next found rest taken =>
      cases decoded
      obtain ⟨rfl, rfl⟩ := get_eq_some_iff.mp taken
      exact ⟨rfl, (List.take_left' m.length_encode).symm⟩
    · cases decoded
  · rintro ⟨rfl, front⟩
    rw [decode_front front]
    rfl

theorem decode_short {k : Kind} {input : Bytes} (short : input.length < k.size) :
    decode k input = ⟨.error (.truncated k.size input.length),
      [.truncated k.codecName k.size input.length]⟩ := by
  rw [decode_eq, get_eq_none short]

theorem exists_encode_append {k : Kind} {input : Bytes} (enough : k.size ≤ input.length) :
    ∃ m : Message, m.kind = k ∧ m.encode = input.take k.size := by
  apply exists_encode
  rw [List.length_take, Nat.min_eq_left enough]

/-- Input that is long enough for a kind always decodes to some value of it. -/
theorem exists_decode {k : Kind} {input : Bytes} (enough : k.size ≤ input.length) :
    ∃ v : k.Body, (decode k input).result = .ok (ofBody k v) := by
  obtain ⟨m, rfl, front⟩ := exists_encode_append enough
  refine ⟨m.body, ?_⟩
  rw [ofBody_body, decode_front front]
  rfl

theorem encode_injective {m n : Message} (kinds : m.kind = n.kind) (bytes : m.encode = n.encode) :
    m = n := by
  have back : decode m.kind m.encode = .quiet (.ok n) := by rw [kinds, bytes, decode_encode]
  rw [decode_encode] at back
  simpa [Answer.quiet] using back

theorem encode_decode_inverse :
    (∀ (m : Message) (trailing : Bytes),
      m.encode.length = m.encodedLength ∧ m.encodedLength = m.kind.size ∧
        (decode m.kind (m.encode ++ trailing)).result = .ok m) ∧
    (∀ (k : Kind) (input : Bytes), k.size ≤ input.length →
      ∃ m : Message, (decode k input).result = .ok m ∧ m.kind = k ∧
        m.encode = input.take k.size) ∧
    (∀ (k : Kind) (input : Bytes), input.length < k.size →
      (decode k input).result = .error (.truncated k.size input.length)) ∧
    ∀ m n : Message, m = n ↔ m.kind = n.kind ∧ m.encode = n.encode := by
  refine ⟨?_, ?_, ?_, ?_⟩
  · intro m trailing
    exact ⟨m.length_encode, rfl, by rw [decode_encode_append]; rfl⟩
  · intro k input enough
    obtain ⟨m, rfl, front⟩ := exists_encode_append enough
    have whole : m.encode ++ input.drop m.kind.size = input := by
      rw [front, List.take_append_drop]
    have decoded := m.decode_encode_append (input.drop m.kind.size)
    rw [whole] at decoded
    exact ⟨m, by rw [decoded]; rfl, rfl, front⟩
  · intro k input short
    rw [decode_short short]
  · intro m n
    constructor
    · rintro rfl
      exact ⟨rfl, rfl⟩
    · rintro ⟨kinds, bytes⟩
      exact encode_injective kinds bytes

theorem encode_decode_inverse_client_flags :
    (Kind.size .clientFlags ≤ [0, 1, 2, 3, 4].length ∧
      ∃ m : Message, (decode .clientFlags [0, 1, 2, 3, 4]).result = .ok m ∧
        m.kind = .clientFlags ∧ m.encode = [0, 1, 2, 3]) ∧
    ([7, 8, 9].length < Kind.size .clientFlags ∧
      (decode .clientFlags [7, 8, 9]).result = .error (.truncated 4 3)) :=
  ⟨⟨by decide, encode_decode_inverse.2.1 .clientFlags [0, 1, 2, 3, 4] (by decide)⟩,
    ⟨by decide, encode_decode_inverse.2.2.1 .clientFlags [7, 8, 9] (by decide)⟩⟩

end Nbd.Message
