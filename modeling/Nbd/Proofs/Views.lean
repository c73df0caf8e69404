import Nbd.Proofs.Drafts
import Nbd.Proofs.Windows

/-! # Views of raw codes

A message keeps a code as the raw number that stands in its field, and an accessor shows that
number as a term.  Nothing is lost in the view: a number is shown as a term exactly when it is
the code of that term, every other number is shown as itself, and so the field can be had back
from what is shown of it.  Among the reply types, errors are told from successes by one bit,
which leads the field on the wire.
-/

namespace Nbd

/-! ## Vocabularies -/

namespace Code

variable {α ω : Type} [Code α ω]

/-- The codes of a vocabulary are `codes`, and a number is read as a term exactly when it is the
    code of that term, and then of no other. -/
structure Exact (α : Type) {ω : Type} [Code α ω] [DecidableEq ω] (codes : List ω) : Prop where
  read_iff : ∀ (raw : ω) (a : α), ofCode? α raw = some a ↔ code a = raw
  unique : ∀ (raw : ω) (a b : α), code a = raw → code b = raw → a = b
  known_iff : ∀ raw : ω, (∃ a, ofCode? α raw = some a) ↔ raw ∈ codes

theorem exact_of_listed [DecidableEq ω] {codes : List ω}
    (listed : (Vocabulary.all : List α).map code = codes) : Exact α codes where
  read_iff _ _ := ofCode?_eq_some_iff
  unique _ _ _ first second := code_injective (first.trans second.symm)
  known_iff raw := by
    rw [← listed, List.mem_map]
    constructor
    · rintro ⟨a, read⟩
      exact ⟨a, Vocabulary.mem_all a, ofCode?_eq_some_iff.mp read⟩
    · rintro ⟨a, _, coded⟩
      exact ⟨a, ofCode?_eq_some_iff.mpr coded⟩

/-- The number `raw` is shown as the term it is the code of, or else as itself. -/
structure Shows (raw : ω) (view : Except ω α) : Prop where
  ok_iff : ∀ a, view = .ok a ↔ code a = raw
  error_iff : ∀ other, view = .error other ↔ other = raw ∧ ∀ a : α, code a ≠ raw

/-- The number behind a view of it. -/
def rawOf : Except ω α → ω
  | .ok a => code a
  | .error raw => raw

theorem rawOf_of_shows {raw : ω} {view : Except ω α} (shown : Shows raw view) :
    rawOf view = raw := by
  cases view with
  | ok a => exact (shown.ok_iff a).mp rfl
  | error other => exact ((shown.error_iff other).mp rfl).1

end Code

theorem OptionRequest.shows_code (r : OptionRequest) : Code.Shows r.option r.code where
  ok_iff _ := code_eq_ok_iff
  error_iff other := by
    rw [← Code.ofCode?_eq_none_iff, code]
    cases Code.ofCode? OptionCode r.option with
    | none => simp [eq_comm]
    | some option => simp

/-! ## Errors of replies -/

namespace Reply

/-- The error field is shown as success if it is zero, as the error it is the code of, or else as
    itself. -/
structure ShowsError (r : Reply) : Prop where
  success_iff : r.errorCode = .ok none ↔ r.error = 0
  known_iff : ∀ code, r.errorCode = .ok (some code) ↔ Code.code code = r.error
  unknown_iff : ∀ raw, r.errorCode = .error raw ↔
    raw = r.error ∧ r.error ≠ 0 ∧ ∀ code : ErrorCode, Code.code code ≠ r.error

theorem showsError (r : Reply) : r.ShowsError :=
  ⟨errorCode_eq_success_iff, fun _ => errorCode_eq_known_iff, fun _ => errorCode_eq_unknown_iff⟩

/-- The error field behind a view of it. -/
def rawError : Except UInt32 (Option ErrorCode) → UInt32
  | .ok none => 0
  | .ok (some code) => Code.code code
  | .error raw => raw

theorem rawError_errorCode (r : Reply) : rawError r.errorCode = r.error := by
  cases view : r.errorCode with
  | ok reported =>
    cases reported with
    | none => exact (errorCode_eq_success_iff.mp view).symm
    | some code => exact errorCode_eq_known_iff.mp view
  | error raw => exact (errorCode_eq_unknown_iff.mp view).1

end Reply

/-! ## The error bit -/

theorem isErrorReply_iff {replyType : UInt32} :
    isErrorReply replyType ↔ 2 ^ 31 ≤ replyType.toNat := by
  have highest : replyType.toBitVec.msb = decide (2 ^ 31 ≤ replyType.toNat) :=
    BitVec.msb_eq_decide _
  have masked : (replyType &&& replyErrorBit).toBitVec =
      if replyType.toBitVec.msb then BitVec.twoPow 32 31 else 0#32 := by
    rw [UInt32.toBitVec_and, BitVec.msb_eq_getLsbD_last]
    exact BitVec.and_twoPow replyType.toBitVec 31
  rw [isErrorReply, Bool.not_eq_true', beq_eq_false_iff_ne, Ne, ← UInt32.toBitVec_inj, masked,
    highest]
  simp

/-- A number reaches into the upper half of its range exactly when its first byte does. -/
theorem half_le_ofBigEndian_iff (b : UInt8) (bs : Bytes) :
    128 * 256 ^ bs.length ≤ ofBigEndian (b :: bs) ↔ 128 ≤ b.toNat := by
  have small : ofBigEndian bs < 256 ^ bs.length := ofBigEndian_lt bs
  have digits := leading_digit_lt_iff (x := b.toNat) (y := 128) small (Nat.zero_lt_of_lt small)
  rw [ofBigEndian]
  omega

theorem OptionReplyCode.isErrorReply_code (success : OptionReplyCode) :
    ¬ isErrorReply (Code.code success) := by
  cases success <;> decide

/-- The error bit of a reply type is the highest bit of the byte that leads its field. -/
theorem OptionReply.isError_iff_leading {input : Bytes} {r : OptionReply}
    (decoded : (Message.decode .optionReply input).result = .ok (.optionReply r)) {b : UInt8}
    (leading : input[12]? = some b) : r.isError ↔ 0x80 ≤ b := by
  have placed : (Kind.windows .optionReply)[2]? = some ⟨12, 4⟩ := rfl
  have spelled : (input.drop 12).take 4 = (Word.w32 r.replyType).encode :=
    Message.take_window decoded placed rfl
  obtain ⟨inside, rfl⟩ := List.getElem?_eq_some_iff.mp leading
  rw [List.drop_eq_getElem_cons inside, List.take_succ_cons] at spelled
  have others : ((input.drop 13).take 3).length = 3 := by
    have four := congrArg List.length spelled
    rw [List.length_cons, Word.length_encode] at four
    exact Nat.succ.inj four
  have number := Word.ofBigEndian_encode (.w32 r.replyType)
  rw [← spelled] at number
  have upper := half_le_ofBigEndian_iff input[12] ((input.drop 13).take 3)
  rw [others, number] at upper
  rw [isError, isErrorReply_iff, UInt8.le_iff_toNat_le]
  exact upper

/-! ## Decoded views -/

theorem OptionRequest.exists_shown {input : Bytes} (enough : 16 ≤ input.length) :
    ∃ r : OptionRequest, (Message.decode .optionRequest input).result = .ok (.optionRequest r) ∧
      r.option.toNat = ofBigEndian ((input.drop 8).take 4) ∧
      Code.Shows r.option r.code ∧ Code.rawOf r.code = r.option := by
  obtain ⟨r, decoded⟩ := Message.exists_decode (k := .optionRequest) enough
  have placed : (Kind.windows .optionRequest)[1]? = some ⟨8, 4⟩ := rfl
  exact ⟨r, decoded, Message.toNat_field decoded placed rfl, r.shows_code,
    Code.rawOf_of_shows r.shows_code⟩

theorem Reply.exists_shown {input : Bytes} (enough : 16 ≤ input.length) :
    ∃ r : Reply, (Message.decode .reply input).result = .ok (.reply r) ∧
      r.error.toNat = ofBigEndian ((input.drop 4).take 4) ∧
      r.ShowsError ∧ rawError r.errorCode = r.error := by
  obtain ⟨r, decoded⟩ := Message.exists_decode (k := .reply) enough
  have placed : (Kind.windows .reply)[1]? = some ⟨4, 4⟩ := rfl
  exact ⟨r, decoded, Message.toNat_field decoded placed rfl, r.showsError, r.rawError_errorCode⟩

theorem OptionReply.exists_shown {input : Bytes} (enough : 20 ≤ input.length) :
    ∃ r : OptionReply, (Message.decode .optionReply input).result = .ok (.optionReply r) ∧
      r.replyType.toNat = ofBigEndian ((input.drop 12).take 4) ∧
      (r.isError ↔ 2 ^ 31 ≤ r.replyType.toNat) ∧
      ∃ b, input[12]? = some b ∧ (Message.optionReply r).encode[12]? = some b ∧
        (r.isError ↔ 0x80 ≤ b) := by
  obtain ⟨r, decoded⟩ := Message.exists_decode (k := .optionReply) enough
  have placed : (Kind.windows .optionReply)[2]? = some ⟨12, 4⟩ := rfl
  have leading : input[12]? = some input[12] := List.getElem?_eq_getElem (by omega)
  have front : (Message.optionReply r).encode = input.take (Kind.size .optionReply) :=
    (Message.decode_eq_ok_iff.mp decoded).2
  have kept : (Message.optionReply r).encode[12]? = some input[12] := by
    rw [front, List.getElem?_take_of_lt (by decide), leading]
  exact ⟨r, decoded, Message.toNat_field decoded placed rfl, isErrorReply_iff, input[12], leading,
    kept, isError_iff_leading decoded leading⟩

/-! ## Views lose nothing -/

/-- A raw number is read as a term exactly where a term stands for it, in every vocabulary and
    whatever the number; so every field that holds a code can be had back from the view of it, and
    the error bit parts the reply types without a doubt. -/
theorem views_exact :
    (Code.Exact Command [0, 1, 2, 3, 4, 5, 7] ∧ Code.Exact InfoCode [0, 1, 2, 3] ∧
      Code.Exact ChunkCode [0, 1, 2, 3, 4] ∧ Code.Exact OptionCode [1, 2, 3, 4, 5, 6, 7, 8] ∧
      Code.Exact OptionReplyCode [1, 2, 3] ∧
      Code.Exact ErrorCode [1, 5, 12, 22, 28, 75, 95, 108] ∧
      Code.Exact OptionError [0x80000001, 0x80000002, 0x80000003, 0x80000004, 0x80000005,
        0x80000006, 0x80000007, 0x80000008]) ∧
    (∀ input : Bytes, 16 ≤ input.length → ∃ r : OptionRequest,
      (Message.decode .optionRequest input).result = .ok (.optionRequest r) ∧
      r.option.toNat = ofBigEndian ((input.drop 8).take 4) ∧
      Code.Shows r.option r.code ∧ Code.rawOf r.code = r.option) ∧
    (∀ input : Bytes, 16 ≤ input.length → ∃ r : Reply,
      (Message.decode .reply input).result = .ok (.reply r) ∧
      r.error.toNat = ofBigEndian ((input.drop 4).take 4) ∧
      r.ShowsError ∧ Reply.rawError r.errorCode = r.error) ∧
    (∀ input : Bytes, 20 ≤ input.length → ∃ r : OptionReply,
      (Message.decode .optionReply input).result = .ok (.optionReply r) ∧
      r.replyType.toNat = ofBigEndian ((input.drop 12).take 4) ∧
      (r.isError ↔ 2 ^ 31 ≤ r.replyType.toNat) ∧
      ∃ b, input[12]? = some b ∧ (Message.optionReply r).encode[12]? = some b ∧
        (r.isError ↔ 0x80 ≤ b)) ∧
    (∀ error : OptionError, isErrorReply (Code.code error)) ∧
    (∀ success : OptionReplyCode, ¬ isErrorReply (Code.code success)) ∧
    ∀ replyType : UInt32, ¬ ((∃ success, Code.ofCode? OptionReplyCode replyType = some success) ∧
      isErrorReply replyType) := by
  refine ⟨⟨Code.exact_of_listed rfl, Code.exact_of_listed rfl, Code.exact_of_listed rfl,
      Code.exact_of_listed rfl, Code.exact_of_listed rfl, Code.exact_of_listed rfl,
      Code.exact_of_listed rfl⟩,
    fun _ => OptionRequest.exists_shown, fun _ => Reply.exists_shown,
    fun _ => OptionReply.exists_shown, OptionError.isErrorReply_code,
    OptionReplyCode.isErrorReply_code, ?_⟩
  rintro replyType ⟨⟨success, read⟩, failed⟩
  rw [← Code.ofCode?_eq_some_iff.mp read] at failed
  exact success.isErrorReply_code failed

/-- An unknown option, an error field that is no code, and a refusal whose field is led by the
    error bit. -/
theorem views_exact_unknown :
    let option : Bytes := [0x49, 0x48, 0x41, 0x56, 0x45, 0x4F, 0x50, 0x54, 0, 0, 0, 42, 0, 0, 0, 0]
    let reply : Bytes := [0x67, 0x44, 0x66, 0x98, 0, 0, 0, 3, 0, 0, 0, 0, 0, 0, 0, 7]
    let refusal : Bytes := [0, 3, 0xE8, 0x89, 4, 0x55, 0x65, 0xA9, 0, 0, 0, 6, 0x80, 0, 0, 1,
      0, 0, 0, 0]
    (16 ≤ option.length ∧ ∃ r : OptionRequest,
      (Message.decode .optionRequest option).result = .ok (.optionRequest r) ∧
      r.code = .error 42) ∧
    (16 ≤ reply.length ∧ ∃ r : Reply, (Message.decode .reply reply).result = .ok (.reply r) ∧
      r.errorCode = .error 3) ∧
    20 ≤ refusal.length ∧ ∃ r : OptionReply,
      (Message.decode .optionReply refusal).result = .ok (.optionReply r) ∧ r.isError := by
  intro option reply refusal
  obtain ⟨_, options, replies, refusals, _⟩ := views_exact
  refine ⟨⟨by decide, ?_⟩, ⟨by decide, ?_⟩, by decide, ?_⟩
  · obtain ⟨r, decoded, number, shown, _⟩ := options option (by decide)
    have field : r.option = 42 := UInt32.toNat_inj.mp number
    refine ⟨r, decoded, (shown.error_iff 42).mpr ⟨field.symm, ?_⟩⟩
    intro known
    rw [field]
    cases known <;> decide
  · obtain ⟨r, decoded, number, shown, _⟩ := replies reply (by decide)
    have field : r.error = 3 := UInt32.toNat_inj.mp number
    refine ⟨r, decoded, (shown.unknown_iff 3).mpr ⟨field.symm, ?_⟩⟩
    rw [field]
    refine ⟨by decide, ?_⟩
    intro known
    cases known <;> decide
  · obtain ⟨r, decoded, _, _, b, leading, _, error_iff⟩ := refusals refusal (by decide)
    cases leading
    exact ⟨r, decoded, error_iff.mpr (by decide)⟩

end Nbd
