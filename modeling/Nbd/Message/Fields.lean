import Nbd.Message.Basic

/-! # Layouts

The layout of a kind as data: the names and widths of its fields in wire order,
without gaps.  `Message.fields` reads a message as the words in those places, and
`Kind.assemble?` builds the message back from them.
-/

namespace Nbd

/-- A place for a word in a message. -/
structure Field where
  name : String
  size : WordSize
  deriving DecidableEq, Repr

/-- The fields of a kind, in wire order. -/
def Kind.layout : Kind → List Field
  | .handshakeHeader => [⟨"magic", .w64⟩, ⟨"opts_magic", .w64⟩, ⟨"global_flags", .w16⟩]
  | .clientFlags => [⟨"flags", .w32⟩]
  | .optionRequest => [⟨"magic", .w64⟩, ⟨"option", .w32⟩, ⟨"length", .w32⟩]
  | .exportDetails => [⟨"size", .w64⟩, ⟨"flags", .w16⟩]
  | .optionReply =>
    [⟨"magic", .w64⟩, ⟨"option", .w32⟩, ⟨"reply_type", .w32⟩, ⟨"length", .w32⟩]
  | .request =>
    [⟨"magic", .w32⟩, ⟨"flags", .w16⟩, ⟨"command_type", .w16⟩, ⟨"handle", .w64⟩,
      ⟨"offset", .w64⟩, ⟨"length", .w32⟩]
  | .reply => [⟨"magic", .w32⟩, ⟨"error", .w32⟩, ⟨"handle", .w64⟩]
  | .exportInfo => [⟨"info_type", .w16⟩, ⟨"size", .w64⟩, ⟨"flags", .w16⟩]
  | .blockSizeInfo =>
    [⟨"info_type", .w16⟩, ⟨"min", .w32⟩, ⟨"preferred", .w32⟩, ⟨"max", .w32⟩]
  | .word size => [⟨"value", size⟩]

/-- The words of a message, in wire order. -/
def Message.fields : Message → List Word
  | .handshakeHeader h => [.w64 h.magic, .w64 h.optionsMagic, .w16 h.globalFlags]
  | .clientFlags c => [.w32 c.word]
  | .optionRequest r => [.w64 r.magic, .w32 r.option, .w32 r.length]
  | .exportDetails d => [.w64 d.size, .w16 d.flags]
  | .optionReply r => [.w64 r.magic, .w32 r.option, .w32 r.replyType, .w32 r.length]
  | .request r =>
    [.w32 r.magic, .w16 r.flags, .w16 r.commandType, .w64 r.handle, .w64 r.offset, .w32 r.length]
  | .reply r => [.w32 r.magic, .w32 r.error, .w64 r.handle]
  | .exportInfo i => [.w16 i.infoType, .w64 i.size, .w16 i.flags]
  | .blockSizeInfo i => [.w16 i.infoType, .w32 i.min, .w32 i.preferred, .w32 i.max]
  | .word w => [w]

/-- The message of a kind with these words, if they have the widths the kind asks for. -/
def Kind.assemble? : Kind → List Word → Option Message
  | .handshakeHeader, [.w64 magic, .w64 optionsMagic, .w16 globalFlags] =>
    some (.handshakeHeader { magic, optionsMagic, globalFlags })
  | .clientFlags, [.w32 flags] => some (.clientFlags ⟨flags⟩)
  | .optionRequest, [.w64 magic, .w32 option, .w32 length] =>
    some (.optionRequest { magic, option, length })
  | .exportDetails, [.w64 size, .w16 flags] => some (.exportDetails { size, flags })
  | .optionReply, [.w64 magic, .w32 option, .w32 replyType, .w32 length] =>
    some (.optionReply { magic, option, replyType, length })
  | .request, [.w32 magic, .w16 flags, .w16 commandType, .w64 handle, .w64 offset, .w32 length] =>
    some (.request { magic, flags, commandType, handle, offset, length })
  | .reply, [.w32 magic, .w32 error, .w64 handle] => some (.reply { magic, error, handle })
  | .exportInfo, [.w16 infoType, .w64 size, .w16 flags] =>
    some (.exportInfo { infoType, size, flags })
  | .blockSizeInfo, [.w16 infoType, .w32 min, .w32 preferred, .w32 max] =>
    some (.blockSizeInfo { infoType, min, preferred, max })
  | .word .w16, [.w16 value] => some (.word (.w16 value))
  | .word .w32, [.w32 value] => some (.word (.w32 value))
  | .word .w64, [.w64 value] => some (.word (.w64 value))
  | _, _ => none

/-! ## Layouts fit their messages -/

@[simp] theorem Message.fields_sizes (m : Message) :
    m.fields.map Word.size = m.kind.layout.map Field.size := by
  cases m <;> rfl

@[simp] theorem Kind.assemble?_fields (m : Message) : m.kind.assemble? m.fields = some m := by
  cases m with
  | word w => cases w <;> rfl
  | _ => rfl

end Nbd
