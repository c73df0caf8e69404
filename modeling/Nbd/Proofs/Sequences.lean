import Nbd.Proofs.RoundTrip

/-! # Several messages in one buffer

A codec appends its value to whatever a buffer holds already, and takes it from the front of
whatever a buffer holds.  So messages of any kinds can be put into one buffer one after another
and taken out again in the same order, and each of them moves the place where the next begins by
exactly its own width.
-/

namespace Nbd

/-- The width of one message of each kind, all together. -/
def Kind.span (kinds : List Kind) : Nat := (kinds.map Kind.size).sum

namespace Message

/-- Appends messages to a buffer, one after another. -/
def putAll (messages : List Message) (buffer : Bytes) : Bytes :=
  messages.foldl (fun buffer m => m.put buffer) buffer

/-- Takes messages of the given kinds from the front of a buffer, one after another. -/
def getAll (kinds : List Kind) : Cursor (List Message) := kinds.mapM get

/-! ## Putting -/

theorem put_eq (m : Message) (buffer : Bytes) : m.put buffer = buffer ++ m.encode := by
  cases m with
  | word w => cases w <;> simp [put, encode, withCodec, Codec.encode, Codec.put]
  | _ => simp [put, encode, withCodec, Codec.encode, Codec.put]

theorem putAll_eq (messages : List Message) (buffer : Bytes) :
    putAll messages buffer = buffer ++ messages.flatMap encode := by
  induction messages generalizing buffer with
  | nil => exact (List.append_nil buffer).symm
  | cons m messages ih =>
    show putAll messages (m.put buffer) = _
    rw [ih, put_eq, List.flatMap_cons, List.append_assoc]

/-! ## Taking -/

theorem getAll_eq_some_iff {kinds : List Kind} {messages : List Message} {input rest : Bytes} :
    (getAll kinds).run input = some (messages, rest) ↔
      messages.map kind = kinds ∧ messages.flatMap encode ++ rest = input :=
  Cursor.mapM_eq_some_iff get_eq_some_iff

theorem length_flatMap_encode_eq_span (messages : List Message) :
    (messages.flatMap encode).length = Kind.span (messages.map kind) := by
  rw [length_flatMap_encode, Kind.span, List.map_map]
  rfl

/-- Some of the messages, taken from where all of them stand, leave the others. -/
theorem getAll_take (messages : List Message) (tail : Bytes) (i : Nat) :
    let input := messages.flatMap encode ++ tail
    let first := (messages.map kind).take i
    (getAll first).run input = some (messages.take i, input.drop (Kind.span first)) := by
  intro input first
  have kinds : (messages.take i).map kind = first := List.map_take
  have whole : input = (messages.take i).flatMap encode ++
      ((messages.drop i).flatMap encode ++ tail) := by
    rw [← List.append_assoc, ← List.flatMap_append, List.take_append_drop]
  have width : ((messages.take i).flatMap encode).length = Kind.span first := by
    rw [length_flatMap_encode_eq_span, kinds]
  refine getAll_eq_some_iff.mpr ⟨kinds, ?_⟩
  rw [whole, List.drop_left' width]

theorem exists_getAll {kinds : List Kind} {input : Bytes}
    (enough : Kind.span kinds ≤ input.length) :
    ∃ messages, (getAll kinds).run input = some (messages, input.drop (Kind.span kinds)) ∧
      messages.map kind = kinds ∧ messages.flatMap encode = input.take (Kind.span kinds) := by
  have front : (input.take (Kind.span kinds)).length = (kinds.map Kind.size).sum := by
    rw [List.length_take, Nat.min_eq_left enough, Kind.span]
  obtain ⟨messages, sorted, spelled⟩ := exists_row_of_exists exists_encode front
  refine ⟨messages, getAll_eq_some_iff.mpr ⟨sorted, ?_⟩, sorted, spelled⟩
  rw [spelled, List.take_append_drop]

/-! ## Both -/

/-- Messages of any kinds that are put into a buffer stand there behind what it held before, one
    behind the other, and are taken again one by one, each by its own width; and whatever fills a
    buffer, what is taken from it and put back gives the same bytes. -/
theorem putAll_getAll :
    (∀ (k : Kind) (v : k.Body), (ofBody k v).encode = Codec.encode v ∧
      ∀ buffer, (ofBody k v).put buffer = Codec.put v buffer) ∧
    (∀ k : Kind, get k = ofBody k <$> Codec.get) ∧
    (∀ (before : Bytes) (messages : List Message) (tail : Bytes),
      let input := messages.flatMap encode ++ tail
      putAll messages before = before ++ messages.flatMap encode ∧
        (getAll (messages.map kind)).run input = some (messages, tail) ∧
        ∀ i, let first := (messages.map kind).take i
          (getAll first).run input = some (messages.take i, input.drop (Kind.span first))) ∧
    ∀ (kinds : List Kind) (input : Bytes), Kind.span kinds ≤ input.length →
      ∃ messages, (getAll kinds).run input = some (messages, input.drop (Kind.span kinds)) ∧
        messages.map kind = kinds ∧
        ∀ before, putAll messages before = before ++ input.take (Kind.span kinds) := by
  refine ⟨?_, fun k => k.dispatch_eq fun _ => Codec.get, ?_, ?_⟩
  · intro k v
    refine ⟨withCodec_ofBody k v Codec.encode, ?_⟩
    intro buffer
    exact withCodec_ofBody k v fun v => Codec.put v buffer
  · intro before messages tail input
    exact ⟨putAll_eq messages before, getAll_eq_some_iff.mpr ⟨rfl, rfl⟩, getAll_take messages tail⟩
  · intro kinds input enough
    obtain ⟨messages, taken, sorted, spelled⟩ := exists_getAll enough
    refine ⟨messages, taken, sorted, ?_⟩
    intro before
    rw [putAll_eq, spelled]

theorem putAll_getAll_mixed :
    let kinds : List Kind := [.word .w16, .exportDetails, .clientFlags]
    let input : Bytes := [0, 1, 2, 3, 4, 5, 6, 7, 8, 9, 10, 11, 12, 13, 14, 15, 16, 17]
    Kind.span kinds ≤ input.length ∧
      ∃ messages, (getAll kinds).run input = some (messages, [16, 17]) ∧
        messages.map kind = kinds ∧ ∀ before, putAll messages before = before ++ input.take 16 := by
  intro kinds input
  have enough : Kind.span kinds ≤ input.length := by decide
  exact ⟨enough, putAll_getAll.2.2.2 kinds input enough⟩

end Message

end Nbd
