import Nbd.Proofs.Flags
import Nbd.Proofs.Windows

/-! # Accepting what was offered

A client that answers a handshake header with `FlagSet.acceptAll` accepts every flag offered in
it and nothing else.  The client's word is wider than the server's and has flags of its own, but
each of them is the bit of the offer it accepts, so the two words agree bit by bit and bits that
no flag names are left behind.  It makes no difference whether they were dropped from the offer
before.  After the handshake both sides therefore read the same flags.
-/

namespace Nbd

/-! ## Two words with the same flags -/

/-- The client has a flag for every flag of the server, on the same bit. -/
theorem ClientFlag.declared_iff {i : Nat} :
    FlagSet.Declared ClientFlag i ↔ FlagSet.Declared HandshakeFlag i := by
  constructor
  · rintro ⟨f, placed⟩
    exact ⟨f.offer, placed⟩
  · rintro ⟨f, placed⟩
    cases f with
    | fixedNewstyle => exact ⟨.fixedNewstyle, placed⟩
    | noZeroes => exact ⟨.noZeroes, placed⟩

namespace FlagSet

variable (offered : FlagSet HandshakeFlag)

theorem getLsbD_acceptAll (i : Nat) :
    offered.acceptAll.bits.getLsbD i = true ↔
      offered.bits.getLsbD i = true ∧ Declared HandshakeFlag i := by
  rw [acceptAll, getLsbD_truncate, ClientFlag.declared_iff]
  change (offered.bits.setWidth 32).getLsbD i = true ∧ _ ↔ _
  rw [BitVec.getLsbD_setWidth, Bool.and_eq_true, decide_eq_true_iff]
  constructor
  · rintro ⟨⟨_, set⟩, declared⟩
    exact ⟨set, declared⟩
  · rintro ⟨set, declared⟩
    have inside : i < 16 := BitVec.lt_of_getLsbD set
    exact ⟨⟨by omega, set⟩, declared⟩

/-- What is accepted is the offer without its undefined bits, in a wider word. -/
theorem bits_acceptAll :
    offered.acceptAll.bits = (truncate offered.bits : FlagSet HandshakeFlag).bits.setWidth 32 := by
  apply BitVec.eq_of_getLsbD_eq
  intro i inside
  have inside : i < 32 := inside
  rw [Bool.eq_iff_iff, getLsbD_acceptAll]
  change _ ↔ ((truncate offered.bits : FlagSet HandshakeFlag).bits.setWidth 32).getLsbD i = true
  rw [BitVec.getLsbD_setWidth, decide_eq_true inside, Bool.true_and, getLsbD_truncate]

theorem has_acceptAll (f : ClientFlag) : offered.acceptAll.has f = offered.has f.offer := by
  have declared : Declared HandshakeFlag (Flag.position f.offer) := ⟨f.offer, rfl⟩
  rw [Bool.eq_iff_iff]
  exact (getLsbD_acceptAll offered _).trans (and_iff_left declared)

theorem acceptAll_truncate : (truncate offered.bits).acceptAll = offered.acceptAll := by
  apply FlagSet.ext
  rw [bits_acceptAll, bits_acceptAll, truncate_truncate]

theorem undefined_acceptAll : offered.acceptAll.undefined = 0#_ := undefined_truncate _

end FlagSet

/-! ## Header and answer -/

namespace HandshakeHeader

theorem bits_acceptAll_flags (h : HandshakeHeader) :
    h.flags.acceptAll.bits = h.flags.bits.setWidth 32 := by
  rw [FlagSet.bits_acceptAll, flags, FlagSet.truncate_truncate]

/-- All that can be accepted is in the two lowest bits of the flags. -/
theorem toNat_acceptAll (h : HandshakeHeader) :
    h.flags.acceptAll.bits.toNat = h.globalFlags.toNat % 4 :=
  calc h.flags.acceptAll.bits.toNat
      = (h.flags.bits.setWidth 32).toNat := congrArg BitVec.toNat h.bits_acceptAll_flags
    _ = h.flags.bits.toNat := BitVec.toNat_setWidth_of_le (by decide)
    _ = h.globalFlags.toNat &&& FlagSet.declaredBits HandshakeFlag := FlagSet.toNat_truncate ..
    _ = h.globalFlags.toNat &&& (2 ^ 2 - 1) := congrArg (h.globalFlags.toNat &&& ·) (by decide)
    _ = h.globalFlags.toNat % 4 := Nat.and_two_pow_sub_one_eq_mod ..

theorem exists_decode {input : Bytes} (enough : 18 ≤ input.length) :
    ∃ h : HandshakeHeader,
      (Message.decode .handshakeHeader input).result = .ok (.handshakeHeader h) ∧
      input[17]? = some (UInt8.ofNat h.globalFlags.toNat) := by
  obtain ⟨h, decoded⟩ := Message.exists_decode (k := .handshakeHeader) enough
  refine ⟨h, decoded, ?_⟩
  have placed : (Kind.windows .handshakeHeader)[2]? = some ⟨16, 2⟩ := rfl
  have spelled : (input.drop 16).take 2 = (Word.w16 h.globalFlags).encode :=
    Message.take_window decoded placed rfl
  have last : ((input.drop 16).take 2)[1]? = input[17]? := by
    rw [List.getElem?_take_of_lt (by decide), List.getElem?_drop]
  rw [← last, spelled]
  show some (UInt8.ofNat (h.globalFlags.toNat / 256 ^ 0)) = _
  rw [Nat.pow_zero, Nat.div_one]

end HandshakeHeader

namespace ClientFlags

theorem flags_accepting_acceptAll (offered : FlagSet HandshakeFlag) :
    (accepting offered.acceptAll).flags = offered.acceptAll :=
  FlagSet.truncate_truncate _

/-- A small word stands in the last of the four bytes. -/
theorem encode_of_lt {c : ClientFlags} (small : c.word.toNat < 256) :
    (Message.clientFlags c).encode = [0, 0, 0, UInt8.ofNat c.word.toNat] := by
  rw [Message.encode_eq_row]
  change bigEndian 4 c.word.toNat ++ [] = _
  rw [List.append_nil, bigEndian, bigEndian, bigEndian, bigEndian, bigEndian,
    Nat.div_eq_of_lt (by omega), Nat.div_eq_of_lt (by omega), Nat.div_eq_of_lt (by omega),
    Nat.pow_zero, Nat.div_one]
  rfl

theorem encode_accepting (h : HandshakeHeader) :
    (Message.clientFlags (accepting h.flags.acceptAll)).encode =
      [0, 0, 0, UInt8.ofNat h.globalFlags.toNat &&& 3] := by
  have word : (accepting h.flags.acceptAll).word.toNat = h.globalFlags.toNat % 4 :=
    h.toNat_acceptAll
  have low : UInt8.ofNat (h.globalFlags.toNat % 4) = UInt8.ofNat h.globalFlags.toNat &&& 3 := by
    apply UInt8.toNat_inj.mp
    have masked : (UInt8.ofNat h.globalFlags.toNat).toNat &&& 3 =
        (UInt8.ofNat h.globalFlags.toNat).toNat % 4 := Nat.and_two_pow_sub_one_eq_mod _ 2
    rw [UInt8.toNat_and, UInt8.toNat_ofNat, masked, UInt8.toNat_ofNat', UInt8.toNat_ofNat']
    omega
  rw [encode_of_lt (by omega), word, low]

end ClientFlags

/-! ## The handshake -/

/-- From any header the client accepts the flags that have a meaning and that the server set, and
    no other bit.  This is what the server reads from the answer, whatever bytes follow it; and
    the answer is the same if the client kept some undefined bits, or all of them, until then. -/
theorem answer_accepts_offer {input : Bytes} (enough : 18 ≤ input.length) :
    ∃ (h : HandshakeHeader) (low : UInt8),
      (Message.decode .handshakeHeader input).result = .ok (.handshakeHeader h) ∧
      input[17]? = some low ∧
      let raw : FlagSet HandshakeFlag := ⟨h.globalFlags.toBitVec⟩
      let c := ClientFlags.accepting h.flags.acceptAll
      let sent := (Message.clientFlags c).encode
      sent = [0, 0, 0, low &&& 3] ∧
      (∀ trailing, ∃ s : ClientFlags,
        (Message.decode .clientFlags (sent ++ trailing)).result = .ok (.clientFlags s) ∧
          s.flags.bits = c.word.toBitVec ∧ c.word.toBitVec = h.flags.bits.setWidth 32 ∧
          h.flags.Restricts raw ∧
          ∀ f : ClientFlag, s.flags.has f = h.flags.has f.offer ∧ s.flags.has f = raw.has f.offer) ∧
      (⟨c.word.toBitVec⟩ : FlagSet ClientFlag).undefined = 0#32 ∧
      ∀ offered : FlagSet HandshakeFlag, h.flags.Restricts offered →
        ClientFlags.accepting offered.acceptAll = c := by
  obtain ⟨h, decoded, last⟩ := HandshakeHeader.exists_decode enough
  refine ⟨h, _, decoded, last, ?_⟩
  intro raw c sent
  have restricts : h.flags.Restricts raw := FlagSet.truncate_restricts raw
  refine ⟨ClientFlags.encode_accepting h, ?_, h.flags.undefined_acceptAll, ?_⟩
  · intro trailing
    have flags : c.flags = h.flags.acceptAll := ClientFlags.flags_accepting_acceptAll h.flags
    refine ⟨c, ?_, congrArg FlagSet.bits flags, h.bits_acceptAll_flags, restricts, ?_⟩
    · exact congrArg Answer.result (Message.decode_encode_append (.clientFlags c) trailing)
    · intro f
      have accepted : c.flags.has f = h.flags.has f.offer := by
        rw [flags, FlagSet.has_acceptAll]
      exact ⟨accepted, accepted.trans (restricts.flags f.offer)⟩
  · intro offered same
    rw [FlagSet.restricts_iff] at same
    rw [← FlagSet.acceptAll_truncate, ← same]

theorem answer_accepts_offer_undefined :
    let input : Bytes := [1, 2, 3, 4, 5, 6, 7, 8, 9, 10, 11, 12, 13, 14, 15, 16, 0xFF, 0xFE, 42]
    18 ≤ input.length ∧ ∃ (h : HandshakeHeader) (low : UInt8),
      (Message.decode .handshakeHeader input).result = .ok (.handshakeHeader h) ∧
      input[17]? = some low ∧
      (Message.clientFlags (.accepting h.flags.acceptAll)).encode = [0, 0, 0, low &&& 3] ∧
      low &&& 3 = 2 := by
  intro input
  have enough : 18 ≤ input.length := by decide
  obtain ⟨h, low, decoded, last, sent, _⟩ := answer_accepts_offer enough
  cases last
  exact ⟨enough, h, 0xFE, decoded, rfl, sent, by decide⟩

end Nbd
