import Nbd.Proofs.Stream.Mode
import Nbd.Proofs.Stream.Split
import Nbd.Proofs.Windows

/-! # Messages read field by field

A message is the row of its fields, also on a stream that fails.  Reading it at once takes
the same bytes as reading its fields one after another as plain words, ends in the same way
and leaves the same script; if the stream ends in a field, the shortfall of the message
counts the fields before it as well.
-/

namespace Nbd

/-! ## Reads by what their loop collects -/

theorem Kind.size_word (size : WordSize) : (Kind.word size).size = size.width := by
  cases size <;> rfl

namespace Mode

variable {mode : Mode} (route : Route) {s rest : mode.Source}

theorem read_of_fill_ok {m : Message} (collected : mode.fill m.kind.size s = (.ok m.encode, rest)) :
    let r := (mode.endpoint route).read m.kind s
    r.result = .ok m ∧ r.rest = rest := by
  rw [read_eq_fill, collected, Message.received_encode]
  exact ⟨rfl, rfl⟩

theorem read_of_fill_ended {k : Kind} {arrived : Nat}
    (collected : mode.fill k.size s = (.error (.endOfStream arrived), rest)) :
    let r := (mode.endpoint route).read k s
    r.result = .error (.truncated k.size arrived) ∧ r.rest = rest := by
  rw [read_eq_fill, collected, Message.received_endOfStream]
  exact ⟨rfl, rfl⟩

theorem read_of_fill_broken {k : Kind} {fault : Fault}
    (collected : mode.fill k.size s = (.error (.fault fault), rest)) :
    let r := (mode.endpoint route).read k s
    r.result = .error (.source fault) ∧ r.rest = rest := by
  rw [read_eq_fill, collected]
  exact ⟨rfl, rfl⟩

theorem fill_cases (width : Nat) (s : mode.Source) :
    (∃ bytes rest, bytes.length = width ∧ mode.fill width s = (.ok bytes, rest)) ∨
      (∃ arrived rest, arrived < width ∧
        mode.fill width s = (.error (.endOfStream arrived), rest)) ∨
      ∃ fault rest, mode.fill width s = (.error (.fault fault), rest) := by
  have settles : (mode.fill width s).1 = Blocking.collected width [] (mode.settled s) := by
    have collects := Blocking.fill_start width (mode.settled s)
    cases mode with
    | blocking => exact congrArg Prod.fst collects
    | suspending => exact congrArg Prod.fst (Suspending.fill_settled.symm.trans collects)
  obtain ⟨bytes, got, length⟩ | ⟨arrived, short, got⟩ | ⟨fault, got⟩ :=
    Blocking.collected_cases width (mode.settled s)
  · exact .inl ⟨bytes, _, length, Prod.ext (settles.trans got) rfl⟩
  · exact .inr (.inl ⟨arrived, _, short, Prod.ext (settles.trans got) rfl⟩)
  · exact .inr (.inr ⟨fault, _, Prod.ext (settles.trans got) rfl⟩)

theorem fill_add_of_ok {m : Nat} {front : Bytes} (first : mode.fill m s = (.ok front, rest))
    (n : Nat) :
    mode.fill (m + n) s = (Shortfall.after front (mode.fill n rest).1, (mode.fill n rest).2) := by
  cases mode with
  | blocking => exact Blocking.fill_add_of_ok first n
  | suspending => exact Suspending.fill_add_of_ok first n

theorem fill_add_of_error {m : Nat} {short : Shortfall}
    (first : mode.fill m s = (.error short, rest)) (n : Nat) :
    mode.fill (m + n) s = (.error short, rest) := by
  cases mode with
  | blocking => exact Blocking.fill_add_of_error first n
  | suspending => exact Suspending.fill_add_of_error first n

end Mode

/-! ## Reads one after another -/

/-- What became of messages read in order up to the first read that failed. -/
structure Gathered (σ : Type) where
  messages : List Message
  failure? : Option Failure
  rest : σ

/-- Reads messages of the given kinds in order, up to the first read that fails. -/
def Endpoint.gather {σ τ : Type} (e : Endpoint σ τ) : List Kind → σ → Gathered σ
  | [], s => ⟨[], none, s⟩
  | k :: kinds, s =>
    let r := e.read k s
    match r.result with
    | .ok m =>
      let later := e.gather kinds r.rest
      ⟨m :: later.messages, later.failure?, later.rest⟩
    | .error failure => ⟨[], some failure, r.rest⟩

namespace Mode

variable {mode : Mode} (route : Route)

/-- Words read one after another are what one loop for all their bytes collects. -/
theorem gather_words (sizes : List WordSize) (start : Nat) (s : mode.Source) :
    let parts := (mode.endpoint route).gather (sizes.map .word) s
    let total := (sizes.map WordSize.width).sum
    (∃ row : List Word, row.map Word.size = sizes ∧ parts.messages = row.map .word ∧
        parts.failure? = none ∧
        mode.fill total s = (.ok (row.flatMap Word.encode), parts.rest)) ∨
      (∃ offset width arrived,
        (Window.sequence start (sizes.map WordSize.width))[parts.messages.length]? =
          some ⟨start + offset, width⟩ ∧
        arrived < width ∧ parts.failure? = some (.truncated width arrived) ∧
        mode.fill total s = (.error (.endOfStream (offset + arrived)), parts.rest)) ∨
      ∃ fault, parts.failure? = some (.source fault) ∧
        mode.fill total s = (.error (.fault fault), parts.rest) := by
  induction sizes generalizing start s with
  | nil =>
    have nothing : mode.fill 0 s = (.ok [], s) := by
      cases mode with
      | blocking => exact Blocking.fill_full (Nat.zero_le _)
      | suspending => exact Suspending.fill_full (Nat.zero_le _)
    exact .inl ⟨[], rfl, rfl, rfl, nothing⟩
  | cons size sizes ih =>
    simp only [List.map_cons, List.sum_cons, Endpoint.gather]
    obtain ⟨bytes, rest, length, first⟩ | ⟨arrived, rest, short, first⟩ | ⟨fault, rest, first⟩ :=
      fill_cases size.width s
    · obtain ⟨w, rfl, rfl⟩ := Word.exists_encode length
      have collected := first
      rw [← Kind.size_word] at collected
      obtain ⟨got, left⟩ := read_of_fill_ok route (m := .word w) collected
      simp only [Message.kind] at got left
      simp only [got, left]
      -- what the later words come to is the rest of one loop, with this word held from before
      have resumed := fill_add_of_ok first ((sizes.map WordSize.width).sum)
      obtain ⟨row, sized, messages, unbroken, later⟩ |
          ⟨offset, width, arrived, placed, short, failed, later⟩ | ⟨fault, failed, later⟩ :=
        ih (start + w.size.width) rest
      · rw [later] at resumed
        exact .inl ⟨w :: row, congrArg (w.size :: ·) sized, congrArg (.word w :: ·) messages,
          unbroken, resumed⟩
      · rw [later] at resumed
        refine .inr (.inl ⟨w.size.width + offset, width, arrived, ?_, short, failed, ?_⟩)
        · rw [← Nat.add_assoc]
          exact placed
        · rw [resumed, Shortfall.after, w.length_encode, Nat.add_assoc]
      · rw [later] at resumed
        exact .inr (.inr ⟨fault, failed, resumed⟩)
    · have collected := first
      rw [← Kind.size_word] at collected
      obtain ⟨ended, left⟩ := read_of_fill_ended route collected
      simp only [ended, left]
      refine .inr (.inl ⟨0, size.width, arrived, rfl, short, ?_, ?_⟩)
      · rw [Kind.size_word]
      · rw [Nat.zero_add]
        exact fill_add_of_error first _
    · have collected := first
      rw [← Kind.size_word] at collected
      obtain ⟨broken, left⟩ := read_of_fill_broken route collected
      simp only [broken, left]
      exact .inr (.inr ⟨fault, rfl, fill_add_of_error first _⟩)

end Mode

/-! ## Messages and their fields -/

/-- A message is encoded as its fields one after another, and is read as they would be: from
    the same bytes, with the same failure and leaving the same script.  An early end of the
    stream counts from the start of the message on. -/
theorem read_fieldwise (mode : Mode) (whole each : Route) :
    (∀ m : Message, m.encode = m.fields.flatMap Word.encode) ∧
    ∀ (k : Kind) (s : mode.Source),
      let read := (mode.endpoint whole).read k s
      let parts := (mode.endpoint each).gather (k.sizes.map .word) s
      read.rest = parts.rest ∧
        ((∃ m : Message, m.kind = k ∧ parts.messages = m.fields.map .word ∧
            parts.failure? = none ∧ read.result = .ok m) ∨
          (∃ window arrived, k.windows[parts.messages.length]? = some window ∧
            arrived < window.width ∧ parts.failure? = some (.truncated window.width arrived) ∧
            read.result = .error (.truncated k.size (window.start + arrived))) ∨
          ∃ fault, parts.failure? = some (.source fault) ∧
            read.result = .error (.source fault)) := by
  refine ⟨Message.encode_eq_row, ?_⟩
  intro k s read parts
  obtain ⟨row, sized, messages, unbroken, collected⟩ |
      ⟨offset, width, arrived, placed, short, failed, collected⟩ | ⟨fault, failed, collected⟩ :=
    Mode.gather_words each k.sizes 0 s
  · rw [← Kind.size_eq_sum] at collected
    obtain ⟨m, rfl, rfl⟩ := Kind.exists_fields k row sized
    rw [← m.encode_eq_row] at collected
    obtain ⟨got, left⟩ := Mode.read_of_fill_ok whole collected
    exact ⟨left, .inl ⟨m, rfl, messages, unbroken, got⟩⟩
  · rw [← Kind.size_eq_sum] at collected
    rw [← Kind.widths_eq, Nat.zero_add] at placed
    obtain ⟨ended, left⟩ := Mode.read_of_fill_ended whole collected
    exact ⟨left, .inr (.inl ⟨⟨offset, width⟩, arrived, placed, short, failed, ended⟩)⟩
  · rw [← Kind.size_eq_sum] at collected
    obtain ⟨broken, left⟩ := Mode.read_of_fill_broken whole collected
    exact ⟨left, .inr (.inr ⟨fault, failed, broken⟩)⟩

end Nbd
