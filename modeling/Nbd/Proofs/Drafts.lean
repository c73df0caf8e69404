import Nbd.Proofs.Flags
import Nbd.Proofs.RoundTrip
import Nbd.Proofs.Transmission

/-! # What was meant is what is read

A sender builds a message from what it means: an option, a command, a set of flags.  The
receiver decodes the bytes and looks at the result through its own accessors.  A `Draft` is
what the sender means, and `Draft.ReadAs` what the receiver should find; no draft loses
anything on the way but the flag bits that have no meaning, and the only draft that is
refused is one of block sizes out of order.
-/

namespace Nbd

/-! ## Drafts -/

/-- What a sender means, one constructor for each way to build a message. -/
inductive Draft where
  | offer (flags : FlagSet HandshakeFlag)
  | offerDefault
  | accept (flags : FlagSet ClientFlag)
  | acceptDefault
  | ask (option : OptionCode) (length : UInt32)
  | details (size : UInt64) (flags : FlagSet TransmissionFlag)
  | detailsDefault
  | optionReply (option replyType length : UInt32)
  | optionError (option : UInt32) (error : OptionError)
  | request (command : Command) (flags : FlagSet CommandFlag) (handle offset : UInt64)
      (length : UInt32)
  | reply (error : UInt32) (handle : UInt64)
  | success (handle : UInt64)
  | answer (request : Request) (error : Option ErrorCode)
  | exportInfo (size : UInt64) (flags : FlagSet TransmissionFlag)
  | blockSizes (min preferred max : UInt32)

namespace Draft

/-- The message that says it, or none if the draft is refused. -/
def message? : Draft → Option Message
  | .offer flags => some (.handshakeHeader (.offering flags))
  | .offerDefault => some (.handshakeHeader default)
  | .accept flags => some (.clientFlags (.accepting flags))
  | .acceptDefault => some (.clientFlags default)
  | .ask option length => some (.optionRequest (.of option length))
  | .details size flags => some (.exportDetails (.of size flags))
  | .detailsDefault => some (.exportDetails default)
  | .optionReply option replyType length => some (.optionReply (.of option replyType length))
  | .optionError option error => some (.optionReply (.ofError option error))
  | .request command flags handle offset length =>
    some (.request (.of command flags handle offset length))
  | .reply error handle => some (.reply (.of error handle))
  | .success handle => some (.reply (.success handle))
  | .answer answered error => some (.reply (.answering answered error))
  | .exportInfo size flags => some (.exportInfo (.of size flags))
  | .blockSizes min preferred max => (BlockSizeInfo.ofSizes? min preferred max).map .blockSizeInfo

/-- What the receiver of a message should find in it. -/
def ReadAs : Draft → Message → Prop
  | .offer flags, .handshakeHeader h =>
    h.magic = Magic.handshake ∧ h.optionsMagic = Magic.options ∧ h.flags.Restricts flags
  | .offerDefault, .handshakeHeader h =>
    h.magic = Magic.handshake ∧ h.optionsMagic = Magic.options ∧ h.flags = .all
  | .accept flags, .clientFlags c => c.flags.Restricts flags
  | .acceptDefault, .clientFlags c => c.flags = .empty
  | .ask option length, .optionRequest r =>
    r.magic = Magic.options ∧ r.code = .ok option ∧ r.length = length
  | .details size flags, .exportDetails d => d.size = size ∧ d.transmissionFlags.Restricts flags
  | .detailsDefault, .exportDetails d => d.size = 0 ∧ d.transmissionFlags = .empty
  | .optionReply option replyType length, .optionReply r =>
    r.magic = Magic.optionReply ∧ r.option = option ∧ r.replyType = replyType ∧ r.length = length
  | .optionError option error, .optionReply r =>
    r.magic = Magic.optionReply ∧ r.option = option ∧ r.isError = true ∧
      r.replyType = Code.code error ∧ r.length = 0
  | .request command flags handle offset length, .request r =>
    r.magic = Magic.request ∧ r.command = .ok command ∧ r.commandFlags.Restricts flags ∧
      r.traits = .quiet (.ok command.traits) ∧ r.handle = handle ∧ r.offset = offset ∧
      r.length = length
  | .reply error handle, .reply r =>
    r.magic = Magic.reply ∧ r.error = error ∧ r.handle = handle
  | .success handle, .reply r =>
    r.magic = Magic.reply ∧ r.errorCode = .ok none ∧ r.handle = handle
  | .answer answered error, .reply r =>
    r.magic = Magic.reply ∧ r.errorCode = .ok error ∧ r.handle = answered.handle
  | .exportInfo size flags, .exportInfo i =>
    i.infoType = 0 ∧ i.size = size ∧ i.transmissionFlags.Restricts flags
  | .blockSizes min preferred max, .blockSizeInfo i =>
    i.infoType = 3 ∧ i.min = min ∧ i.preferred = preferred ∧ i.max = max ∧
      i.isWellOrdered = true
  | _, _ => False

end Draft

/-! ## Building -/

theorem OptionError.isErrorReply_code (error : OptionError) :
    isErrorReply (Code.code error) = true := by
  cases error <;> decide

namespace BlockSizeInfo

theorem isWellOrdered_ofSizes (min preferred max : UInt32) :
    (ofSizes min preferred max).isWellOrdered = true ↔ min ≤ preferred ∧ preferred ≤ max := by
  rw [isWellOrdered, Bool.and_eq_true, decide_eq_true_iff, decide_eq_true_iff]
  rfl

theorem ofSizes?_eq_some_iff {min preferred max : UInt32} {i : BlockSizeInfo} :
    ofSizes? min preferred max = some i ↔
      (min ≤ preferred ∧ preferred ≤ max) ∧ ofSizes min preferred max = i := by
  simp only [ofSizes?, isWellOrdered_ofSizes, Option.ite_none_right_eq_some, Option.some.injEq]

theorem ofSizes?_eq_none_iff {min preferred max : UInt32} :
    ofSizes? min preferred max = none ↔ ¬ (min ≤ preferred ∧ preferred ≤ max) := by
  simp only [ofSizes?, isWellOrdered_ofSizes, ite_eq_right_iff, reduceCtorEq, imp_false]

end BlockSizeInfo

namespace Draft

theorem message?_eq_none_iff {draft : Draft} :
    draft.message? = none ↔ ∃ min preferred max, draft = .blockSizes min preferred max ∧
      ¬ (min ≤ preferred ∧ preferred ≤ max) := by
  cases draft with
  | blockSizes min preferred max =>
    rw [message?, Option.map_eq_none_iff, BlockSizeInfo.ofSizes?_eq_none_iff]
    constructor
    · intro unordered
      exact ⟨min, preferred, max, rfl, unordered⟩
    · rintro ⟨_, _, _, same, unordered⟩
      cases same
      exact unordered
  | _ => simp [message?]

/-- A message that was built says what was drafted. -/
theorem readAs_message {draft : Draft} {m : Message} (built : draft.message? = some m) :
    draft.ReadAs m := by
  cases draft with
  | blockSizes min preferred max =>
    obtain ⟨i, sizes, rfl⟩ := Option.map_eq_some_iff.mp built
    obtain ⟨ordered, rfl⟩ := BlockSizeInfo.ofSizes?_eq_some_iff.mp sizes
    exact ⟨rfl, rfl, rfl, rfl, (BlockSizeInfo.isWellOrdered_ofSizes ..).mpr ordered⟩
  | offer flags =>
    cases built
    exact ⟨rfl, rfl, FlagSet.truncate_restricts flags⟩
  | offerDefault =>
    cases built
    exact ⟨rfl, rfl, by decide⟩
  | accept flags =>
    cases built
    exact FlagSet.truncate_restricts flags
  | acceptDefault =>
    cases built
    exact (by decide : (default : ClientFlags).flags = .empty)
  | ask option length =>
    cases built
    exact ⟨rfl, OptionRequest.code_eq_ok_iff.mpr rfl, rfl⟩
  | details size flags =>
    cases built
    exact ⟨rfl, FlagSet.truncate_restricts flags⟩
  | detailsDefault =>
    cases built
    exact ⟨rfl, by decide⟩
  | optionReply option replyType length =>
    cases built
    exact ⟨rfl, rfl, rfl, rfl⟩
  | optionError option error =>
    cases built
    exact ⟨rfl, rfl, error.isErrorReply_code, rfl, rfl⟩
  | request command flags handle offset length =>
    cases built
    exact ⟨rfl, Request.command_eq_ok_iff.mpr rfl, FlagSet.truncate_restricts flags,
      command.lookup_code, rfl, rfl, rfl⟩
  | reply error handle =>
    cases built
    exact ⟨rfl, rfl, rfl⟩
  | success handle =>
    cases built
    exact ⟨rfl, rfl, rfl⟩
  | answer answered error =>
    cases built
    exact ⟨rfl, Reply.errorCode_answering answered error, rfl⟩
  | exportInfo size flags =>
    cases built
    exact ⟨rfl, rfl, FlagSet.truncate_restricts flags⟩

/-! ## Reading -/

/-- Every draft is read as it was meant, unless it is refused; only block sizes out of order
    are. -/
theorem decode_drafted (draft : Draft) :
    (draft.message? = none ↔ ∃ min preferred max, draft = .blockSizes min preferred max ∧
      ¬ (min ≤ preferred ∧ preferred ≤ max)) ∧
    ∀ m, draft.message? = some m → ∀ trailing : Bytes, ∃ d,
      (Message.decode m.kind (m.encode ++ trailing)).result = .ok d ∧ draft.ReadAs d := by
  refine ⟨message?_eq_none_iff, ?_⟩
  intro m built trailing
  refine ⟨m, ?_, readAs_message built⟩
  rw [m.decode_encode_append]
  rfl

theorem decode_drafted_write :
    let draft : Draft := .request .write ⟨0xFF01#16⟩ 42 4096 512
    let bytes : Bytes := [0x25, 0x60, 0x95, 0x13, 0xFF, 1, 0, 1, 0, 0, 0, 0, 0, 0, 0, 42,
      0, 0, 0, 0, 0, 0, 16, 0, 0, 0, 2, 0]
    ∃ m, draft.message? = some m ∧ m.encode = bytes ∧
      ∃ d, (Message.decode .request (bytes ++ [9])).result = .ok d ∧ draft.ReadAs d := by
  intro draft bytes
  have spelled : (Message.request (.of .write ⟨0xFF01#16⟩ 42 4096 512)).encode = bytes := by
    decide +kernel
  refine ⟨_, rfl, spelled, ?_⟩
  obtain ⟨d, decoded, found⟩ := (decode_drafted draft).2 _ rfl [9]
  rw [spelled] at decoded
  exact ⟨d, decoded, found⟩

end Draft

end Nbd
