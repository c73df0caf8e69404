import Nbd.Haggling
import Nbd.Reply

/-! # Requests and replies

What the fields of a request say about the command and the data behind it, and what a
client reads off a reply.
-/

namespace Nbd

/-! ## Keys -/

/-- A key that no two entries of a list share picks out one of them. -/
theorem filter_key {α κ : Type} [DecidableEq κ] {key : α → κ} {entries : List α}
    (distinct : (entries.map key).Nodup) {entry : α} (listed : entry ∈ entries) :
    (entries.filter fun other => key other = key entry) = [entry] := by
  obtain ⟨before, after, rfl⟩ := List.append_of_mem listed
  rw [List.map_append, List.map_cons] at distinct
  obtain ⟨_, later, apart⟩ := List.nodup_append.mp distinct
  -- the keys of the others differ, on either side of `entry`
  have noneBefore : (before.filter fun other => key other = key entry) = [] := by
    apply List.filter_eq_nil_iff.mpr
    intro other earlier
    simpa using apart (key other) (List.mem_map_of_mem earlier) (key entry) List.mem_cons_self
  have noneAfter : (after.filter fun other => key other = key entry) = [] := by
    apply List.filter_eq_nil_iff.mpr
    intro other behind
    have fresh := (List.nodup_cons.mp later).1
    simp only [decide_eq_true_eq]
    intro same
    exact fresh (same ▸ List.mem_map_of_mem behind)
  rw [List.filter_append, List.filter_cons_of_pos (by simp), noneBefore, noneAfter]
  rfl

/-! ## Codes -/

theorem OptionRequest.code_eq_ok_iff {r : OptionRequest} {option : OptionCode} :
    r.code = .ok option ↔ Code.code option = r.option := by
  rw [← Code.ofCode?_eq_some_iff, code]
  cases Code.ofCode? OptionCode r.option with
  | none => simp
  | some found => simp

theorem Command.lookup_code (command : Command) :
    lookup (Code.code command) = .quiet (.ok command.traits) := by
  rw [lookup, Code.ofCode?_code]

theorem Command.lookup_unknown {code : UInt16}
    (unknown : ∀ command : Command, Code.code command ≠ code) :
    lookup code = ⟨.error (.unknownCommand code), [.unknownCommand code]⟩ := by
  rw [lookup, Code.ofCode?_eq_none_iff.mpr unknown]

namespace Request

variable {r : Request}

theorem command_eq_ok_iff {command : Command} :
    r.command = .ok command ↔ Code.code command = r.commandType := by
  rw [← Code.ofCode?_eq_some_iff, Request.command]
  cases Code.ofCode? Command r.commandType with
  | none => simp
  | some found => simp

theorem command_eq_error_iff {failure : Failure} :
    r.command = .error failure ↔ (∀ command : Command, Code.code command ≠ r.commandType) ∧
      failure = .unknownCommand r.commandType := by
  rw [← Code.ofCode?_eq_none_iff, Request.command]
  cases Code.ofCode? Command r.commandType with
  | none => simp [eq_comm]
  | some found => simp

/-! ## The data after a header -/

/-- Only a write is followed by data. -/
theorem payloadLength_known {command : Command} (known : r.command = .ok command) :
    r.payloadLength = .quiet (.ok (if command = .write then r.length.toNat else 0)) := by
  rw [payloadLength, traits, ← command_eq_ok_iff.mp known, Command.lookup_code]
  cases command <;> rfl

theorem payloadLength_unknown {failure : Failure} (unknown : r.command = .error failure) :
    r.payloadLength = ⟨.error failure, [.unknownCommand r.commandType]⟩ := by
  obtain ⟨none, rfl⟩ := command_eq_error_iff.mp unknown
  rw [payloadLength, traits, Command.lookup_unknown none]
  rfl

end Request

/-! ## The error of a reply -/

/-- Zero is left for success. -/
theorem ErrorCode.code_ne_zero (code : ErrorCode) : Code.code code ≠ (0 : UInt32) := by
  cases code <;> decide

namespace Reply

/-- The error a reply was made with is the error read from it. -/
theorem errorCode_answering (r : Request) (error : Option ErrorCode) :
    (answering r error).errorCode = .ok error := by
  cases error with
  | none => rfl
  | some code =>
    have reported : (answering r (some code)).error = Code.code code := rfl
    rw [errorCode, reported, if_neg code.code_ne_zero, Code.ofCode?_code]

variable {r : Reply}

theorem errorCode_eq_success_iff : r.errorCode = .ok none ↔ r.error = 0 := by
  rw [errorCode]
  by_cases zero : r.error = 0
  · simp [zero]
  · rw [if_neg zero]
    cases Code.ofCode? ErrorCode r.error with
    | none => simp [zero]
    | some found => simp [zero]

theorem errorCode_eq_known_iff {code : ErrorCode} :
    r.errorCode = .ok (some code) ↔ Code.code code = r.error := by
  rw [errorCode]
  by_cases zero : r.error = 0
  · simp [zero, code.code_ne_zero]
  · rw [if_neg zero, ← Code.ofCode?_eq_some_iff]
    cases Code.ofCode? ErrorCode r.error with
    | none => simp
    | some found => simp

theorem errorCode_eq_unknown_iff {raw : UInt32} :
    r.errorCode = .error raw ↔
      raw = r.error ∧ r.error ≠ 0 ∧ ∀ code : ErrorCode, Code.code code ≠ r.error := by
  rw [errorCode]
  by_cases zero : r.error = 0
  · simp [zero]
  · rw [if_neg zero, ← Code.ofCode?_eq_none_iff]
    cases Code.ofCode? ErrorCode r.error with
    | none => simp [zero, eq_comm]
    | some found => simp

end Reply

end Nbd
