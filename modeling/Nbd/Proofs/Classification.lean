import Nbd.Proofs.Transmission
import Nbd.Proofs.Windows

/-! # What a request is taken for

A request is classified three times: as a command, by the traits of that command, and by the
number of bytes that follow it.  All three go by the one code that stands in its header, and they
agree with the table: the code has one row there and each of them is read off that row, or it has
none and each of them refuses it (`Request.Classified`).  The rows in turn keep to a few rules,
so that data never comes with a request whose range or target is not checked.
-/

namespace Nbd

/-! ## Rows -/

namespace Command

/-- A row of the table. -/
abbrev Row := Command × FlagSet CommandTrait

/-- The rows of the table for a raw code. -/
def rowsOf (code : UInt16) : List Row := traitTable.filter fun row => Code.code row.1 = code

theorem mem_traitTable (command : Command) : (command, command.traits) ∈ traitTable := by
  cases command <;> decide

theorem codes_traitTable : (traitTable.map fun row => Code.code row.1).Nodup := by decide

theorem rowsOf_code (command : Command) :
    rowsOf (Code.code command) = [(command, command.traits)] :=
  filter_key codes_traitTable (mem_traitTable command)

theorem rowsOf_unknown {code : UInt16} (unknown : ∀ command : Command, Code.code command ≠ code) :
    rowsOf code = [] := by
  apply List.filter_eq_nil_iff.mpr
  intro row _
  simpa only [decide_eq_true_eq] using unknown row.1

/-- The rules that the traits of every command keep to. -/
structure Disciplined (traits : FlagSet CommandTrait) : Prop where
  /-- Data in any direction, sent or stood in for, needs a range that is checked. -/
  ranged : traits.has .requestPayload ∨ traits.has .requestFakePayload ∨ traits.has .replyPayload →
    traits.has .checkLengthOffset
  /-- Data for the export needs an export that can be written to. -/
  writable : traits.has .requestPayload ∨ traits.has .requestFakePayload →
    traits.has .checkNotReadOnly
  /-- Data goes one way only, and either is sent or is not. -/
  exclusive : traits.has .requestPayload → ¬ traits.has .requestFakePayload ∧
    ¬ traits.has .replyPayload
  /-- A command that ends the session requires nothing. -/
  final : traits.has .setDisconnectReceived → traits = .singleton .setDisconnectReceived

theorem disciplined_traits (command : Command) : Disciplined command.traits := by
  cases command <;> exact ⟨by decide, by decide, by decide, by decide⟩

theorem disciplined_of_mem {row : Row} (listed : row ∈ traitTable) : Disciplined row.2 := by
  have paired : ∀ row ∈ traitTable, row.2 = row.1.traits := by decide
  rw [paired row listed]
  exact disciplined_traits row.1

end Command

/-! ## Requests -/

namespace Request

/-- The three classifications of a request are read off a row. -/
structure ReadOff (r : Request) (row : Command.Row) : Prop where
  command : r.command = .ok row.1
  traits : r.traits = .quiet (.ok row.2)
  lookup : Command.lookup r.commandType = .quiet (.ok row.2)
  ofCommand : row.2 = row.1.traits
  payload : r.payloadLength =
    .quiet (.ok (if row.2.has .requestPayload then r.length.toNat else 0))

/-- The three classifications of a request refuse its code. -/
structure Refused (r : Request) : Prop where
  command : r.command = .error (.unknownCommand r.commandType)
  traits : r.traits =
    ⟨.error (.unknownCommand r.commandType), [.unknownCommand r.commandType]⟩
  lookup : Command.lookup r.commandType =
    ⟨.error (.unknownCommand r.commandType), [.unknownCommand r.commandType]⟩
  payload : r.payloadLength =
    ⟨.error (.unknownCommand r.commandType), [.unknownCommand r.commandType]⟩

/-- The code of a request has one row and the request is classified by it, or it has none and
    the request is refused. -/
def Classified (r : Request) : Prop :=
  (∃ row, Command.rowsOf r.commandType = [row] ∧ r.ReadOff row) ∨
    Command.rowsOf r.commandType = [] ∧ r.Refused

theorem classified (r : Request) : r.Classified := by
  cases known : r.command with
  | ok command =>
    have code := command_eq_ok_iff.mp known
    have found : Command.lookup r.commandType = .quiet (.ok command.traits) := by
      rw [← code, Command.lookup_code]
    refine .inl ⟨(command, command.traits), ?_, known, found, found, rfl, ?_⟩
    · rw [← code, Command.rowsOf_code]
    · rw [payloadLength, traits, found]
      rfl
  | error failure =>
    obtain ⟨unknown, rfl⟩ := command_eq_error_iff.mp known
    have missing := Command.lookup_unknown unknown
    refine .inr ⟨Command.rowsOf_unknown unknown, known, missing, missing, ?_⟩
    exact payloadLength_unknown known

/-- Data follows a request only if its range is checked and its export can be written to. -/
theorem checked_of_payload {r : Request} {n : Nat} (followed : r.payloadLength.result = .ok n)
    (some : n ≠ 0) : ∃ traits, r.traits.result = .ok traits ∧
      traits.has .checkLengthOffset ∧ traits.has .checkNotReadOnly := by
  obtain ⟨row, listed, readOff⟩ | ⟨_, refused⟩ := r.classified
  · rw [readOff.payload] at followed
    obtain rfl := Except.ok.inj followed
    have sends : row.2.has .requestPayload := by
      by_contra sendsNothing
      exact some (if_neg sendsNothing)
    have rules : Command.Disciplined row.2 := by
      rw [readOff.ofCommand]
      exact Command.disciplined_traits row.1
    exact ⟨row.2, congrArg Answer.result readOff.traits, rules.ranged (.inl sends),
      rules.writable (.inl sends)⟩
  · rw [refused.payload] at followed
    cases followed

theorem exists_decode {input : Bytes} (enough : 28 ≤ input.length) :
    ∃ r : Request, (Message.decode .request input).result = .ok (.request r) ∧
      r.commandType.toNat = 256 * input[6].toNat + input[7].toNat := by
  obtain ⟨r, decoded⟩ := Message.exists_decode (k := .request) enough
  refine ⟨r, decoded, ?_⟩
  have placed : (Kind.windows .request)[2]? = some ⟨6, 2⟩ := rfl
  have number : r.commandType.toNat = ofBigEndian ((input.drop 6).take 2) :=
    Message.toNat_field decoded placed rfl
  have pair : (input.drop 6).take 2 = [input[6], input[7]] := by
    rw [List.drop_eq_getElem_cons (by omega), List.drop_eq_getElem_cons (by omega)]
    rfl
  rw [pair] at number
  simp only [ofBigEndian, List.length_cons, List.length_nil] at number
  omega

/-! ## The classifications agree -/

/-- Whatever header is received, its code is the one that stands in it, and the three
    classifications of the request agree on it with each other and with the table; every row of the
    table keeps to the rules, so no data comes with a request that escapes the checks. -/
theorem classifications_agree :
    (∀ (input : Bytes) (enough : 28 ≤ input.length), ∃ r : Request,
      (Message.decode .request input).result = .ok (.request r) ∧
      r.commandType.toNat = 256 * input[6].toNat + input[7].toNat ∧ r.Classified ∧
      ∀ n, r.payloadLength.result = .ok n → n ≠ 0 → ∃ traits, r.traits.result = .ok traits ∧
        traits.has .checkLengthOffset ∧ traits.has .checkNotReadOnly) ∧
    ∀ row ∈ Command.traitTable, Command.Disciplined row.2 := by
  refine ⟨?_, fun _ => Command.disciplined_of_mem⟩
  intro input enough
  obtain ⟨r, decoded, code⟩ := exists_decode enough
  exact ⟨r, decoded, code, r.classified, fun _ => checked_of_payload⟩

theorem classifications_agree_write :
    let input : Bytes := [0x25, 0x60, 0x95, 0x13, 0, 1, 0, 1, 0, 0, 0, 0, 0, 0, 0, 42,
      0, 0, 0, 0, 0, 0, 0x10, 0, 0, 0, 2, 0, 0xFF]
    let r : Request := ⟨0x25609513, 1, 1, 42, 4096, 512⟩
    28 ≤ input.length ∧ (Message.decode .request input).result = .ok (.request r) ∧
      r.Classified ∧ (r.payloadLength.result = .ok 512 ∧ ∃ traits, r.traits.result = .ok traits ∧
        traits.has .checkLengthOffset ∧ traits.has .checkNotReadOnly) ∧
      ((.write, Command.write.traits) ∈ Command.traitTable ∧
        Command.Disciplined Command.write.traits) := by
  intro input r
  have enough : 28 ≤ input.length := by decide
  have received : (Message.decode .request input).result = .ok (.request r) := by decide +kernel
  have followed : r.payloadLength.result = .ok 512 := rfl
  have listed := Command.mem_traitTable .write
  obtain ⟨agree, rules⟩ := classifications_agree
  obtain ⟨found, decoded, _, classified, checked⟩ := agree input enough
  cases decoded.symm.trans received
  exact ⟨enough, received, classified, ⟨followed, checked 512 followed (by decide)⟩,
    listed, rules _ listed⟩

end Request

end Nbd
