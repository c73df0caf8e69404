import Mathlib.Data.List.Forall2
import Nbd.Proofs.Drafts

/-! # The normal form of a message

A message can be taken apart into what it means and built anew from that.  What comes out is
its normal form: the fields whose value is fixed hold that value, flag words have lost the
bits that stand for nothing, and every other field is as it was.  A message that is its own
normal form goes out again byte for byte; any other is altered on the way.
-/

namespace Nbd

/-! ## Taking apart and building anew -/

namespace Message

/-- The draft that the receiver of a message reads in it; none if the code in it is unknown,
    or if the message is a plain word, which means nothing by itself. -/
def draft? : Message → Option Draft
  | .handshakeHeader h => some (.offer h.flags)
  | .clientFlags c => some (.accept c.flags)
  | .optionRequest r => r.code.toOption.map fun option => .ask option r.length
  | .exportDetails d => some (.details d.size d.transmissionFlags)
  | .optionReply r => some (.optionReply r.option r.replyType r.length)
  | .request r => r.command.toOption.map fun command =>
    .request command r.commandFlags r.handle r.offset r.length
  | .reply r => some (.reply r.error r.handle)
  | .exportInfo i => some (.exportInfo i.size i.transmissionFlags)
  | .blockSizeInfo i => some (.blockSizes i.min i.preferred i.max)
  | .word _ => none

/-- The message built anew from what a message means. -/
def normal? (m : Message) : Option Message := m.draft?.bind Draft.message?

/-- All that the receiver looks at can be made sense of. -/
def Readable : Message → Prop
  | .optionRequest r => ∃ option, r.code = .ok option
  | .request r => ∃ command, r.command = .ok command
  | .blockSizeInfo i => i.isWellOrdered = true
  | .word _ => False
  | _ => True

end Message

/-! ## Roles of fields -/

/-- What a field is there for. -/
inductive Role : Type 1 where
  /-- It is the same in every message of the kind: a magic, or the type of an information
      block. -/
  | fixed (word : Word)
  /-- It is a set of flags of `F`. -/
  | flags (F : Type) [Flag F]
  | free

namespace Role

/-- What a field becomes in the normal form. -/
def settle : Role → Word → Word
  | .fixed word, _ => word
  | @flags F _, w => .ofNat w.size (w.toNat &&& FlagSet.declaredBits F)
  | .free, w => w

/-- The field holds what it should, and no undefined flag bit. -/
def Admits : Role → Word → Prop
  | .fixed word, w => w = word
  | @flags F _, w => ∀ i, w.toNat.testBit i = true → FlagSet.Declared F i
  | .free, _ => True

end Role

/-- The roles of the fields of a kind, in wire order. -/
def Kind.roles : Kind → List Role
  | .handshakeHeader =>
    [.fixed (.w64 Magic.handshake), .fixed (.w64 Magic.options), .flags HandshakeFlag]
  | .clientFlags => [.flags ClientFlag]
  | .optionRequest => [.fixed (.w64 Magic.options), .free, .free]
  | .exportDetails => [.free, .flags TransmissionFlag]
  | .optionReply => [.fixed (.w64 Magic.optionReply), .free, .free, .free]
  | .request =>
    [.fixed (.w32 Magic.request), .flags CommandFlag, .free, .free, .free, .free]
  | .reply => [.fixed (.w32 Magic.reply), .free, .free]
  | .exportInfo => [.fixed (.w16 0), .free, .flags TransmissionFlag]
  | .blockSizeInfo => [.fixed (.w16 3), .free, .free, .free]
  | .word _ => [.free]

theorem Kind.length_roles (k : Kind) : k.roles.length = k.sizes.length := by
  cases k <;> rfl

/-! ## Settling a field -/

namespace Role

theorem toNat_settle_flags (F : Type) [Flag F] (w : Word) :
    ((flags F).settle w).toNat = w.toNat &&& FlagSet.declaredBits F :=
  Word.toNat_ofNat (Nat.lt_of_le_of_lt Nat.and_le_left w.toNat_lt)

theorem admits_settle (role : Role) (w : Word) : role.Admits (role.settle w) := by
  cases role with
  | fixed word => rfl
  | flags F =>
    intro i set
    rw [toNat_settle_flags, Nat.testBit_and, Bool.and_eq_true] at set
    exact (FlagSet.testBit_declaredBits F i).mp set.2
  | free => trivial

theorem settle_eq_self_iff {role : Role} {w : Word} : role.settle w = w ↔ role.Admits w := by
  constructor
  · intro same
    rw [← same]
    exact admits_settle role w
  · intro admits
    cases role with
    | fixed word => exact Eq.symm admits
    | flags F =>
      -- a bit that is set is declared, so the mask keeps it
      have kept : w.toNat &&& FlagSet.declaredBits F = w.toNat := by
        apply Nat.eq_of_testBit_eq
        intro i
        rw [Nat.testBit_and]
        cases set : w.toNat.testBit i with
        | false => rfl
        | true => exact (FlagSet.testBit_declaredBits F i).mpr (admits i set)
      rw [settle, kept, w.ofNat_toNat]
    | free => rfl

theorem admits_zipWith_settle {roles : List Role} {row : List Word}
    (lengths : roles.length = row.length) :
    List.Forall₂ Admits roles (List.zipWith settle roles row) := by
  induction roles generalizing row with
  | nil => exact .nil
  | cons role roles ih =>
    cases row with
    | nil => cases lengths
    | cons w row => exact .cons (admits_settle role w) (ih (Nat.succ.inj lengths))

theorem zipWith_settle_eq_self_iff {roles : List Role} {row : List Word}
    (lengths : roles.length = row.length) :
    List.zipWith settle roles row = row ↔ List.Forall₂ Admits roles row := by
  induction roles generalizing row with
  | nil =>
    cases row with
    | nil => simp
    | cons w row => cases lengths
  | cons role roles ih =>
    cases row with
    | nil => cases lengths
    | cons w row =>
      rw [List.zipWith_cons_cons, List.cons.injEq, List.forall₂_cons, settle_eq_self_iff,
        ih (Nat.succ.inj lengths)]

/-- A truncated word of flags is the settled one. -/
theorem settle_flags {F : Type} [Flag F] {w kept : Word} (size : kept.size = w.size)
    (truncated : kept.toNat = w.toNat &&& FlagSet.declaredBits F) : (flags F).settle w = kept := by
  rw [settle, ← truncated, ← size, kept.ofNat_toNat]

end Role

/-! ## The normal form -/

namespace Message

variable {m : Message}

theorem length_roles (m : Message) : m.kind.roles.length = m.fields.length := by
  rw [Kind.length_roles, ← m.fields_sized, List.length_map]

/-- Building anew changes a field as its role says, and what could be read still can. -/
theorem exists_normal (readable : m.Readable) :
    ∃ n, m.normal? = some n ∧ n.kind = m.kind ∧ n.Readable ∧
      n.fields = List.zipWith Role.settle m.kind.roles m.fields := by
  cases m with
  | handshakeHeader h =>
    have flags : (Role.flags HandshakeFlag).settle (.w16 h.globalFlags) =
        .w16 (.ofBitVec h.flags.bits) :=
      Role.settle_flags rfl (FlagSet.toNat_truncate HandshakeFlag h.globalFlags.toBitVec)
    exact ⟨_, rfl, rfl, trivial, congrArg ([_, _, ·]) flags.symm⟩
  | clientFlags c =>
    have flags : (Role.flags ClientFlag).settle (.w32 c.word) =
        .w32 (.ofBitVec c.flags.bits) :=
      Role.settle_flags rfl (FlagSet.toNat_truncate ClientFlag c.word.toBitVec)
    exact ⟨_, rfl, rfl, trivial, congrArg ([·]) flags.symm⟩
  | optionRequest r =>
    -- the field is built anew from the option, whose code it was
    obtain ⟨option, known⟩ := readable
    have code := OptionRequest.code_eq_ok_iff.mp known
    refine ⟨.optionRequest (.of option r.length), ?_, rfl, ?_, ?_⟩
    · rw [normal?, draft?, known]
      rfl
    · exact ⟨option, OptionRequest.code_eq_ok_iff.mpr rfl⟩
    · exact congrArg (fun raw => [_, Word.w32 raw, _]) code
  | exportDetails d =>
    have flags : (Role.flags TransmissionFlag).settle (.w16 d.flags) =
        .w16 (.ofBitVec d.transmissionFlags.bits) :=
      Role.settle_flags rfl (FlagSet.toNat_truncate TransmissionFlag d.flags.toBitVec)
    exact ⟨_, rfl, rfl, trivial, congrArg ([_, ·]) flags.symm⟩
  | optionReply r => exact ⟨_, rfl, rfl, trivial, rfl⟩
  | request r =>
    obtain ⟨command, known⟩ := readable
    have code := Request.command_eq_ok_iff.mp known
    have flags : (Role.flags CommandFlag).settle (.w16 r.flags) =
        .w16 (.ofBitVec r.commandFlags.bits) :=
      Role.settle_flags rfl (FlagSet.toNat_truncate CommandFlag r.flags.toBitVec)
    refine ⟨.request (.of command r.commandFlags r.handle r.offset r.length), ?_, rfl, ?_, ?_⟩
    · rw [normal?, draft?, known]
      rfl
    · exact ⟨command, Request.command_eq_ok_iff.mpr rfl⟩
    · exact congrArg₂ (fun word raw => [_, word, Word.w16 raw, _, _, _]) flags.symm code
  | reply r => exact ⟨_, rfl, rfl, trivial, rfl⟩
  | exportInfo i =>
    have flags : (Role.flags TransmissionFlag).settle (.w16 i.flags) =
        .w16 (.ofBitVec i.transmissionFlags.bits) :=
      Role.settle_flags rfl (FlagSet.toNat_truncate TransmissionFlag i.flags.toBitVec)
    exact ⟨_, rfl, rfl, trivial, congrArg ([_, _, ·]) flags.symm⟩
  | blockSizeInfo i =>
    have ordered : (BlockSizeInfo.ofSizes i.min i.preferred i.max).isWellOrdered = true := readable
    refine ⟨.blockSizeInfo (.ofSizes i.min i.preferred i.max), ?_, rfl, ordered, rfl⟩
    have built := BlockSizeInfo.ofSizes?_eq_some_iff.mpr
      ⟨(BlockSizeInfo.isWellOrdered_ofSizes ..).mp ordered, rfl⟩
    change (BlockSizeInfo.ofSizes? i.min i.preferred i.max).map _ = _
    rw [built]
    rfl
  | word w => cases readable

/-- A message is its own normal form just if every field holds what it should. -/
theorem normal?_eq_self_iff (readable : m.Readable) :
    m.normal? = some m ↔ List.Forall₂ Role.Admits m.kind.roles m.fields := by
  obtain ⟨n, built, kind, _, settled⟩ := exists_normal readable
  rw [← Role.zipWith_settle_eq_self_iff m.length_roles, ← settled, built, Option.some.injEq]
  constructor
  · rintro rfl
    rfl
  · exact eq_of_fields kind

/-- Building a message anew from what it means changes nothing but the fields that are fixed and
    the flag bits that mean nothing.  Doing so again changes nothing more, and the bytes stay as
    they were received just if nothing had to be changed. -/
theorem decode_normal {k : Kind} {input : Bytes} {m : Message}
    (decoded : (decode k input).result = .ok m) (readable : m.Readable) :
    ∃ n, m.normal? = some n ∧ n.kind = k ∧
      n.fields = List.zipWith Role.settle k.roles m.fields ∧
      n.normal? = some n ∧
      (n.encode = input.take k.size ↔ List.Forall₂ Role.Admits k.roles m.fields) := by
  -- the front of the buffer spells `m`, so the bytes agree just if `n` is `m`
  obtain ⟨rfl, front⟩ := decode_eq_ok_iff.mp decoded
  obtain ⟨n, built, kind, readableAgain, settled⟩ := exists_normal readable
  refine ⟨n, built, kind, settled, ?_, ?_⟩
  · rw [normal?_eq_self_iff readableAgain, settled, kind]
    exact Role.admits_zipWith_settle m.length_roles
  · rw [← front, ← normal?_eq_self_iff readable, built, Option.some.injEq]
    constructor
    · exact encode_injective kind
    · rintro rfl
      rfl

theorem decode_normal_request :
    let input : Bytes := [1, 2, 3, 4, 0xFF, 5, 0, 4, 0, 0, 0, 0, 0, 0, 0, 42,
      0, 0, 0, 0, 0, 0, 16, 0, 0, 0, 2, 0, 9]
    let m : Message := .request ⟨0x01020304, 0xFF05, 4, 42, 4096, 512⟩
    (decode .request input).result = .ok m ∧ m.Readable ∧
      ∃ n, m.normal? = some n ∧ n.normal? = some n ∧
        n = .request ⟨Magic.request, 5, 4, 42, 4096, 512⟩ ∧ n.encode ≠ input.take 28 := by
  intro input m
  have decoded : (decode .request input).result = .ok m := by decide +kernel
  have readable : m.Readable := ⟨.trim, rfl⟩
  obtain ⟨n, built, kind, settled, again, same⟩ := decode_normal decoded readable
  have row : n.fields = (Message.request ⟨Magic.request, 5, 4, 42, 4096, 512⟩).fields := by
    rw [settled]
    decide +kernel
  refine ⟨decoded, readable, n, built, again, eq_of_fields kind row, ?_⟩
  intro kept
  cases same.mp kept with
  | cons magic _ =>
    have wrong : Word.w32 0x01020304 ≠ .w32 Magic.request := by decide
    exact wrong magic

end Message

end Nbd
