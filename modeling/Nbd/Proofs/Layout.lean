import Nbd.Proofs.Routing
import Nbd.Proofs.Words

/-! # Messages as rows of words

Every kind of message is the row of words its layout names, in that order and
without gaps, and building a message from such a row never fails.  With the laws of
rows this settles what the twelve codecs do, once for all of them: a cursor takes a
message exactly where the bytes of that message stand (`Message.get_eq_some_iff`),
and bytes of a kind's width always are the bytes of some message of that kind
(`Message.exists_encode`).
-/

namespace Nbd

/-! ## Kinds -/

/-- The sizes of the words of a kind, in wire order. -/
def Kind.sizes (k : Kind) : List WordSize := k.layout.map Field.size

theorem Kind.size_eq_sum (k : Kind) : k.size = (k.sizes.map WordSize.width).sum := by
  cases k with
  | word size => cases size <;> rfl
  | _ => rfl

theorem Kind.size_pos (k : Kind) : 0 < k.size := by
  cases k with
  | word size => cases size <;> decide
  | _ => decide

namespace Kind

theorem assemble?_eq_some_iff {k : Kind} {row : List Word} {m : Message} :
    k.assemble? row = some m ↔ m.kind = k ∧ m.fields = row := by
  constructor
  · intro assembled
    unfold assemble? at assembled
    split at assembled
    all_goals cases assembled
    all_goals exact ⟨rfl, rfl⟩
  · rintro ⟨rfl, rfl⟩
    exact assemble?_fields m

/-- A row of the right sizes is the row of some message. -/
theorem exists_fields : (k : Kind) → (row : List Word) → row.map Word.size = k.sizes →
    ∃ m : Message, m.kind = k ∧ m.fields = row
  | .handshakeHeader, [.w64 _, .w64 _, .w16 _], _ => ⟨.handshakeHeader ⟨_, _, _⟩, rfl, rfl⟩
  | .clientFlags, [.w32 _], _ => ⟨.clientFlags ⟨_⟩, rfl, rfl⟩
  | .optionRequest, [.w64 _, .w32 _, .w32 _], _ => ⟨.optionRequest ⟨_, _, _⟩, rfl, rfl⟩
  | .exportDetails, [.w64 _, .w16 _], _ => ⟨.exportDetails ⟨_, _⟩, rfl, rfl⟩
  | .optionReply, [.w64 _, .w32 _, .w32 _, .w32 _], _ => ⟨.optionReply ⟨_, _, _, _⟩, rfl, rfl⟩
  | .request, [.w32 _, .w16 _, .w16 _, .w64 _, .w64 _, .w32 _], _ =>
    ⟨.request ⟨_, _, _, _, _, _⟩, rfl, rfl⟩
  | .reply, [.w32 _, .w32 _, .w64 _], _ => ⟨.reply ⟨_, _, _⟩, rfl, rfl⟩
  | .exportInfo, [.w16 _, .w64 _, .w16 _], _ => ⟨.exportInfo ⟨_, _, _⟩, rfl, rfl⟩
  | .blockSizeInfo, [.w16 _, .w32 _, .w32 _, .w32 _], _ =>
    ⟨.blockSizeInfo ⟨_, _, _, _⟩, rfl, rfl⟩
  | .word _, [w], sized => ⟨.word w, congrArg Kind.word (List.cons.inj sized).1, rfl⟩

end Kind

namespace Message

theorem fields_sized (m : Message) : m.fields.map Word.size = m.kind.sizes := m.fields_sizes

/-- A message is known by its kind and its fields. -/
theorem eq_of_fields {m n : Message} (kinds : m.kind = n.kind) (rows : m.fields = n.fields) :
    m = n := by
  have assembled := Kind.assemble?_fields m
  rw [kinds, rows, Kind.assemble?_fields] at assembled
  exact (Option.some.inj assembled).symm

/-! ## The two directions of the codecs -/

theorem encode_eq_row (m : Message) : m.encode = m.fields.flatMap Word.encode := by
  cases m with
  | word w => simp [fields, Word.encode]
  | _ => simp [fields, Word.encode, encode, withCodec, Codec.encode, Codec.put]

theorem get_eq_row (k : Kind) (input : Bytes) :
    (get k).run input = ((Cursor.words k.sizes).run input).bind fun (row, rest) =>
      (k.assemble? row).map (·, rest) := by
  cases k with
  | word size =>
    cases size <;>
      simp [get, Kind.sizes, Kind.layout, Kind.dispatch, Cursor.words, Cursor.word, Word.ofNat,
        WordSize.width, Codec.get, Kind.assemble?, Option.map_eq_bind, Option.bind_assoc,
        Function.comp_def]
  | _ =>
    -- both sides come to one row of binds, whatever else is tagged for them
    simp only [get, Kind.sizes, Kind.layout, Kind.dispatch, Cursor.words, Cursor.word, Word.ofNat,
      WordSize.width, Codec.get, Kind.assemble?, List.map_cons, List.map_nil, List.mapM_cons,
      List.mapM_nil, StateT.run_bind, StateT.run_map, bind_pure_comp, bind_map_left, map_bind,
      map_pure, Functor.map_map, Function.comp_def, Option.map_eq_map, Option.map_eq_bind,
      Option.bind_eq_bind, Option.bind_assoc, Option.bind_some]

@[simp] theorem length_encode (m : Message) : m.encode.length = m.kind.size := by
  rw [encode_eq_row, Word.length_row, fields_sized, Kind.size_eq_sum]

theorem length_flatMap_encode (messages : List Message) :
    (messages.flatMap Message.encode).length = (messages.map Message.encodedLength).sum := by
  rw [List.length_flatMap]
  exact congrArg List.sum (List.map_congr_left fun m _ => m.length_encode)

theorem get_eq_some_iff {k : Kind} {m : Message} {input rest : Bytes} :
    (get k).run input = some (m, rest) ↔ m.kind = k ∧ m.encode ++ rest = input := by
  rw [get_eq_row, encode_eq_row]
  simp only [Option.bind_eq_some_iff, Prod.exists, Option.map_eq_some_iff, Prod.mk.injEq,
    Cursor.words_eq_some_iff, Kind.assemble?_eq_some_iff]
  constructor
  · rintro ⟨row, _, ⟨-, spelled⟩, _, ⟨kind, rfl⟩, rfl, rfl⟩
    exact ⟨kind, spelled⟩
  · rintro ⟨rfl, spelled⟩
    exact ⟨m.fields, rest, ⟨m.fields_sized, spelled⟩, m, ⟨rfl, rfl⟩, rfl, rfl⟩

theorem get_eq_none {k : Kind} {input : Bytes} (short : input.length < k.size) :
    (get k).run input = none := by
  cases taken : (get k).run input with
  | none => rfl
  | some found =>
    obtain ⟨rfl, rfl⟩ := get_eq_some_iff.mp taken
    rw [List.length_append, length_encode] at short
    omega

theorem exists_encode {k : Kind} {bytes : Bytes} (exact_length : bytes.length = k.size) :
    ∃ m : Message, m.kind = k ∧ m.encode = bytes := by
  rw [Kind.size_eq_sum] at exact_length
  obtain ⟨row, sized, spelled⟩ := Word.exists_row exact_length
  obtain ⟨m, rfl, rfl⟩ := Kind.exists_fields k row sized
  exact ⟨m, rfl, m.encode_eq_row.trans spelled⟩

end Message

end Nbd
