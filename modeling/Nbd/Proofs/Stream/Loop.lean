import Mathlib.Data.List.Chain
import Nbd.Proofs.Stream.Mode

/-! # The loop that collects a message

A read keeps a buffer as wide as the message and a count of the bytes that have arrived in it, and
calls the source for the part that is missing until nothing is.  Here the loop of either mode is
taken apart into its calls: `Mode.Pass` is a call after which the loop goes on, `Mode.Stop` one at
which it ends, and `Mode.Run` lists the calls of a whole read.  That these are the calls the loop
does make can be seen by reading from a source that keeps a log of them (`Run.fillFrom_logged`).

Filling the buffer alone does not end the loop, since a call may be made again with nothing
gained.  But such a call uses up an item of the script, so what is missing of the buffer and the
number of those items, taken together, shrink with every call (`Mode.Advance.budget_lt`).
-/

namespace Nbd

/-! ## Single calls -/

namespace PollSource

/-- A call that meets this item has no effect and is made again. -/
def idle : Poll SourceItem → Bool
  | .pending => true
  | .ready (.fault f) => f.kind = .interrupted
  | .ready _ => false

/-- How many calls on a source are made again without effect. -/
def retries (s : PollSource) : Nat := s.countP idle

/-- Nothing is left of a source, or the end of the stream stands in front. -/
inductive Ended : PollSource → Prop where
  | exhausted : Ended []
  | ended (rest : PollSource) : Ended (.ready .endOfStream :: rest)

/-- What a call for at least one and at most `n` bytes can answer, and what it leaves. -/
inductive Answers (n : Nat) (s : PollSource) : Poll (Except Fault Bytes) → PollSource → Prop where
  | nothing {rest : PollSource} : s.Ended → Answers n s (.ready (.ok [])) rest
  | data {bytes : Bytes} {rest : PollSource} : bytes ≠ [] → bytes.length ≤ n →
    s.contents = bytes ++ rest.contents → s.retries = rest.retries →
    Answers n s (.ready (.ok bytes)) rest
  | interrupted {fault : Fault} {rest : PollSource} : fault.kind = .interrupted →
    s.contents = rest.contents → s.retries = rest.retries + 1 →
    Answers n s (.ready (.error fault)) rest
  | fault {fault : Fault} {rest : PollSource} : fault.kind ≠ .interrupted →
    Answers n s (.ready (.error fault)) rest
  | pending {rest : PollSource} : s.contents = rest.contents → s.retries = rest.retries + 1 →
    Answers n s .pending rest

@[simp] theorem retries_cons (item : Poll SourceItem) (s : PollSource) :
    retries (item :: s) = s.retries + if idle item then 1 else 0 := List.countP_cons

theorem retries_push (bytes : Bytes) (s : PollSource) :
    retries ((Source.push bytes []).map .ready ++ s) = s.retries := by
  cases bytes with
  | nil => rfl
  | cons b bs => simp [Source.push, idle]

theorem contents_push (bytes : Bytes) (s : PollSource) :
    contents ((Source.push bytes []).map .ready ++ s) = bytes ++ s.contents := by
  rw [contents, Poll.settled_append, Poll.settled_map_ready, Source.push_nil_append,
    Source.contents_push, contents]

theorem answers_call {n : Nat} (asked : 0 < n) (s : PollSource) :
    s.Answers n (s.call n).1 (s.call n).2 := by
  cases s with
  | nil => exact .nothing .exhausted
  | cons item rest =>
    cases item with
    | pending => exact .pending rfl (retries_cons .pending rest)
    | ready item =>
      cases item with
      | data chunk =>
        obtain ⟨m, rfl⟩ := Nat.exists_eq_add_one_of_ne_zero (Nat.ne_of_gt asked)
        refine .data (List.cons_ne_nil chunk.head _) (List.length_take_le _ _) ?_ ?_
        · change chunk.bytes ++ contents rest = _
          rw [call, Source.call, contents_push, ← List.append_assoc, List.take_append_drop]
        · rw [call, Source.call, retries_push]
          exact retries_cons (.ready (.data chunk)) rest
      | endOfStream => exact .nothing (.ended rest)
      | fault fault =>
        by_cases interrupted : fault.kind = .interrupted
        · refine .interrupted interrupted rfl ?_
          rw [retries_cons, idle, if_pos (decide_eq_true interrupted)]
          rfl
        · exact .fault interrupted

theorem call_ended {n : Nat} {s : PollSource} (ended : s.Ended) :
    (s.call n).1 = .ready (.ok []) := by
  cases ended with
  | exhausted => rfl
  | ended rest => rfl

end PollSource

/-! ## Calls in either mode -/

/-- A source with a log of the calls made on it: what each asked for, and what was left then. -/
structure Logged (σ : Type) where
  source : σ
  log : List (Nat × σ)

instance {σ ω : Type} {nothing : ω} [Readable σ nothing] : Readable (Logged σ) nothing where
  call n s :=
    let (answer, rest) := Readable.call n s.source
    (answer, ⟨rest, s.log ++ [(n, s.source)]⟩)
  weight s := Readable.weight s.source
  weight_lt_of_call := by
    intro n s rest answer asked called
    obtain ⟨rfl, rfl⟩ := Prod.mk.inj called
    exact Readable.weight_lt_of_call asked rfl

namespace Mode

/-- What a call answers. -/
@[reducible] def Answer : Mode → Type
  | .blocking => Except Fault Bytes
  | .suspending => Poll (Except Fault Bytes)

/-- The answer without bytes. -/
@[reducible] def nothing : (mode : Mode) → mode.Answer
  | .blocking => .ok []
  | .suspending => .ready (.ok [])

instance readableSource : (mode : Mode) → Readable mode.Source mode.nothing
  | .blocking => inferInstance
  | .suspending => inferInstance

/-- A source as a script of calls that may suspend. -/
def script : (mode : Mode) → mode.Source → PollSource
  | .blocking, s => s.map .ready
  | .suspending, s => s

/-- An answer as one that could have been a suspension. -/
def poll : (mode : Mode) → mode.Answer → Poll (Except Fault Bytes)
  | .blocking, answer => .ready answer
  | .suspending, answer => answer

/-- One read call for at most `n` bytes. -/
def call (mode : Mode) {σ : Type} [Readable σ mode.nothing] (n : Nat) (s : σ) :
    Poll (Except Fault Bytes) × σ :=
  let (answer, rest) := Readable.call n s
  (mode.poll answer, rest)

/-- The read loop of a mode from where the bytes `filled` have arrived. -/
def fillFrom : (mode : Mode) → {σ : Type} → [Readable σ mode.nothing] → Nat → Bytes → σ →
    Except Shortfall Bytes × σ
  | .blocking, _, _ => Blocking.fill
  | .suspending, _, _ => Suspending.fill

variable {mode : Mode}

theorem call_script (n : Nat) (s : mode.Source) :
    (mode.script s).call n = ((mode.call n s).1, mode.script (mode.call n s).2) := by
  cases mode with
  | suspending => rfl
  | blocking =>
    cases s with
    | nil => rfl
    | cons item rest =>
      cases item with
      | data chunk =>
        simp only [script, List.map_cons, PollSource.call, Source.call]
        rw [← List.map_append, Source.push_nil_append]
        rfl
      | endOfStream => rfl
      | fault fault => rfl

theorem answers_call {n : Nat} (asked : 0 < n) (s : mode.Source) :
    (mode.script s).Answers n (mode.call n s).1 (mode.script (mode.call n s).2) := by
  have answers := (mode.script s).answers_call asked
  rwa [call_script] at answers

theorem fillFrom_nil (width : Nat) (s : mode.Source) :
    mode.fillFrom width [] s = mode.fill width s := by
  cases mode <;> rfl

section

variable {σ : Type} [Readable σ mode.nothing] {width : Nat} {filled : Bytes} {s rest : σ}

theorem fillFrom_full (full : width ≤ filled.length) :
    mode.fillFrom width filled s = (.ok filled, s) := by
  cases mode with
  | blocking => exact Blocking.fill_full full
  | suspending => exact Suspending.fill_full full

/-- What the loop does with the answer to a call. -/
def resume (mode : Mode) {σ : Type} [Readable σ mode.nothing] (width : Nat) (filled : Bytes)
    (rest : σ) : Poll (Except Fault Bytes) → Except Shortfall Bytes × σ
  | .pending => mode.fillFrom width filled rest
  | .ready (.ok []) => (.error (.endOfStream filled.length), rest)
  | .ready (.ok (b :: bs)) => mode.fillFrom width (filled ++ b :: bs) rest
  | .ready (.error fault) =>
    if fault.kind = .interrupted then mode.fillFrom width filled rest
    else (.error (.fault fault), rest)

theorem fillFrom_call {answer : Poll (Except Fault Bytes)} (missing : filled.length < width)
    (called : mode.call (width - filled.length) s = (answer, rest)) :
    mode.fillFrom width filled s = mode.resume width filled rest answer := by
  cases mode with
  | blocking =>
    rw [fillFrom, Blocking.fill, dif_pos missing]
    split
    all_goals
      next answered =>
        cases called.symm.trans (congrArg (fun c => (blocking.poll c.1, c.2)) answered)
        rfl
  | suspending =>
    rw [fillFrom, Suspending.fill, dif_pos missing]
    split
    all_goals
      next answered =>
        cases called.symm.trans answered
        rfl

end

end Mode

/-! ## The loop -/

/-- A read between two calls: its buffer, how many bytes of the buffer are filled, and what is
    left of the source. -/
structure Reading (σ : Type) where
  buffer : Bytes
  filled : Nat
  source : σ

namespace Reading

variable {σ : Type}

/-- A read of `width` bytes that has made no call yet. -/
def start (width : Nat) (s : σ) : Reading σ where
  buffer := .replicate width 0
  filled := 0
  source := s

/-- The bytes that have arrived. -/
def arrived (r : Reading σ) : Bytes := r.buffer.take r.filled

/-- The part of the buffer that a call may fill. -/
def slice (r : Reading σ) : Bytes := r.buffer.drop r.filled

/-- The read after a call that has put bytes at the front of the slice. -/
def store (r : Reading σ) (bytes : Bytes) (rest : σ) : Reading σ where
  buffer := r.arrived ++ (bytes ++ r.slice.drop bytes.length)
  filled := r.filled + bytes.length
  source := rest

/-- The call that is made next, as it stands in a log. -/
def request (r : Reading σ) : Nat × σ := (r.slice.length, r.source)

/-- The same read from a source that keeps a log. -/
def logged (r : Reading σ) (log : List (Nat × σ)) : Reading (Logged σ) where
  buffer := r.buffer
  filled := r.filled
  source := ⟨r.source, log⟩

/-- The loop goes on as long as something of the buffer is missing. -/
def Missing (r : Reading σ) : Prop := r.filled < r.buffer.length

instance (r : Reading σ) : Decidable r.Missing :=
  inferInstanceAs (Decidable (r.filled < r.buffer.length))

theorem length_slice (r : Reading σ) : r.slice.length = r.buffer.length - r.filled :=
  List.length_drop

theorem length_arrived {r : Reading σ} (within : r.filled ≤ r.buffer.length) :
    r.arrived.length = r.filled := by
  rw [arrived, List.length_take, Nat.min_eq_left within]

theorem arrived_store {r : Reading σ} (within : r.filled ≤ r.buffer.length) (bytes : Bytes)
    (rest : σ) : (r.store bytes rest).arrived = r.arrived ++ bytes := by
  have length : (r.arrived ++ bytes).length = r.filled + bytes.length := by
    rw [List.length_append, length_arrived within]
  rw [arrived, store, ← List.append_assoc]
  exact List.take_left' length

theorem arrived_full {r : Reading σ} (full : ¬ r.Missing) : r.arrived = r.buffer :=
  List.take_of_length_le (Nat.le_of_not_lt full)

theorem length_store {r : Reading σ} (within : r.filled ≤ r.buffer.length) {bytes : Bytes}
    (fits : bytes.length ≤ r.slice.length) (rest : σ) :
    (r.store bytes rest).buffer.length = r.buffer.length := by
  rw [store, List.length_append, List.length_append, List.length_drop, length_arrived within]
  rw [length_slice] at fits ⊢
  omega

end Reading

namespace Mode

section

variable (mode : Mode) {σ : Type} [Readable σ mode.nothing]

/-- A call after which the loop goes on. -/
inductive Pass (r : Reading σ) : Reading σ → Prop where
  | stored {bytes : Bytes} {rest : σ} :
    mode.call r.slice.length r.source = (.ready (.ok bytes), rest) → bytes ≠ [] →
    bytes.length ≤ r.slice.length → Pass r (r.store bytes rest)
  | interrupted {fault : Fault} {rest : σ} :
    mode.call r.slice.length r.source = (.ready (.error fault), rest) →
    fault.kind = .interrupted → Pass r { r with source := rest }
  | suspended {rest : σ} :
    mode.call r.slice.length r.source = (.pending, rest) → Pass r { r with source := rest }

/-- A call at which the loop ends. -/
inductive Stop (r : Reading σ) : Shortfall → σ → Prop where
  | endOfStream {rest : σ} :
    mode.call r.slice.length r.source = (.ready (.ok []), rest) →
    Stop r (.endOfStream r.filled) rest
  | fault {fault : Fault} {rest : σ} :
    mode.call r.slice.length r.source = (.ready (.error fault), rest) →
    fault.kind ≠ .interrupted → Stop r (.fault fault) rest

/-- The calls that a loop makes, each with the state in which it is made, and how the loop ends. -/
inductive Run : Reading σ → List (Reading σ) → Except Shortfall Bytes → σ → Prop where
  | full {r : Reading σ} : ¬ r.Missing → Run r [] (.ok r.buffer) r.source
  | stop {r : Reading σ} {short : Shortfall} {rest : σ} :
    r.Missing → mode.Stop r short rest → Run r [r] (.error short) rest
  | again {r next : Reading σ} {calls : List (Reading σ)} {outcome : Except Shortfall Bytes}
    {rest : σ} :
    r.Missing → mode.Pass r next → Run next calls outcome rest →
    Run r (r :: calls) outcome rest

end

/-! ## One call -/

/-- What a call after which the loop goes on has done: `bytes` have arrived behind the others, or
    none have and an item of the script that only asks for another call is used up. -/
structure Advance (mode : Mode) (bytes : Bytes) (r next : Reading mode.Source) : Prop where
  sized : next.buffer.length = r.buffer.length
  filled : next.filled = r.filled + bytes.length
  within : next.filled ≤ next.buffer.length
  arrived : next.arrived = r.arrived ++ bytes
  consumed : (mode.script r.source).contents = bytes ++ (mode.script next.source).contents
  progress : bytes ≠ [] ∧ (mode.script r.source).retries = (mode.script next.source).retries ∨
    bytes = [] ∧ (mode.script r.source).retries = (mode.script next.source).retries + 1

variable {mode : Mode}

theorem Advance.idle {r : Reading mode.Source} (missing : r.Missing) {rest : mode.Source}
    (contents : (mode.script r.source).contents = (mode.script rest).contents)
    (retries : (mode.script r.source).retries = (mode.script rest).retries + 1) :
    mode.Advance [] r { r with source := rest } where
  sized := rfl
  filled := rfl
  within := Nat.le_of_lt missing
  arrived := (List.append_nil _).symm
  consumed := contents
  progress := .inr ⟨rfl, retries⟩

theorem Pass.exists_advance {r next : Reading mode.Source} (pass : mode.Pass r next)
    (missing : r.Missing) : ∃ bytes, mode.Advance bytes r next := by
  have within : r.filled ≤ r.buffer.length := Nat.le_of_lt missing
  have asked : 0 < r.slice.length := r.length_slice ▸ Nat.sub_pos_of_lt missing
  have answers := mode.answers_call asked r.source
  cases pass with
  | stored called some fits =>
    rw [called] at answers
    cases answers with
    | nothing => exact absurd rfl some
    | data _ _ contents retries =>
      have sized := Reading.length_store within fits
      have room := Nat.add_le_of_le_sub' within (r.length_slice ▸ fits)
      exact ⟨_, sized _, rfl, room.trans_eq (sized _).symm, Reading.arrived_store within _ _,
        contents, .inl ⟨some, retries⟩⟩
  | interrupted called kind =>
    rw [called] at answers
    cases answers with
    | interrupted _ contents retries => exact ⟨[], .idle missing contents retries⟩
    | fault broken => exact absurd kind broken
  | suspended called =>
    rw [called] at answers
    cases answers with
    | pending contents retries => exact ⟨[], .idle missing contents retries⟩

/-- Every call either ends the loop or lets it go on. -/
theorem stop_or_pass {r : Reading mode.Source} (missing : r.Missing) :
    (∃ short rest, mode.Stop r short rest) ∨ ∃ next, mode.Pass r next := by
  have asked : 0 < r.slice.length := r.length_slice ▸ Nat.sub_pos_of_lt missing
  have answers := mode.answers_call asked r.source
  rcases called : mode.call r.slice.length r.source with ⟨answer, rest⟩
  rw [called] at answers
  cases answers with
  | nothing => exact .inl ⟨_, rest, .endOfStream called⟩
  | data some fits => exact .inr ⟨_, .stored called some fits⟩
  | interrupted kind => exact .inr ⟨_, .interrupted called kind⟩
  | fault broken => exact .inl ⟨_, rest, .fault called broken⟩
  | pending => exact .inr ⟨_, .suspended called⟩

/-! ## How many calls there can be -/

/-- How many calls can follow at most before the loop ends: one for each byte that is missing and
    one for each item that only asks for another call. -/
def budget (r : Reading mode.Source) : Nat :=
  r.buffer.length - r.filled + (mode.script r.source).retries

theorem Advance.budget_lt {bytes : Bytes} {r next : Reading mode.Source}
    (advance : mode.Advance bytes r next) (missing : r.Missing) : budget next < budget r := by
  have short : r.filled < r.buffer.length := missing
  rw [budget, budget, advance.sized, advance.filled]
  obtain ⟨some, retries⟩ | ⟨rfl, retries⟩ := advance.progress
  · have := List.length_pos_iff.mpr some
    omega
  · rw [List.length_nil]
    omega

theorem exists_run (r : Reading mode.Source) :
    ∃ calls outcome rest, mode.Run r calls outcome rest := by
  -- the budget bounds the number of passes, whatever answers the calls get
  induction bound : budget r using Nat.strong_induction_on generalizing r with
  | _ n ih =>
    by_cases missing : r.Missing
    · obtain ⟨short, rest, stop⟩ | ⟨next, pass⟩ := stop_or_pass missing
      · exact ⟨_, _, _, .stop missing stop⟩
      · obtain ⟨bytes, advance⟩ := pass.exists_advance missing
        obtain ⟨calls, outcome, rest, run⟩ := ih _ (bound ▸ advance.budget_lt missing) next rfl
        exact ⟨_, _, _, .again missing pass run⟩
    · exact ⟨_, _, _, .full missing⟩

theorem Run.length_le {r : Reading mode.Source} {calls : List (Reading mode.Source)}
    {outcome : Except Shortfall Bytes} {rest : mode.Source}
    (run : mode.Run r calls outcome rest) : calls.length ≤ budget r + 1 := by
  induction run with
  | full => exact Nat.zero_le _
  | stop => exact Nat.le_add_left 1 _
  | again missing pass _ ih =>
    obtain ⟨bytes, advance⟩ := pass.exists_advance missing
    have := advance.budget_lt missing
    rw [List.length_cons]
    omega

/-! ## What holds at every call -/

variable (mode) in
/-- The loop invariant of a read of `width` bytes from `s`. -/
structure Invariant (width : Nat) (s : mode.Source) (r : Reading mode.Source) : Prop where
  sized : r.buffer.length = width
  within : r.filled ≤ width
  consumed : (mode.script s).contents = r.arrived ++ (mode.script r.source).contents

variable (mode) in
/-- What holds besides when a call is made: something is missing, the call asks for exactly that,
    and so an answer without bytes tells the end of the stream. -/
structure AtCall (width : Nat) (s : mode.Source) (r : Reading mode.Source) : Prop
    extends mode.Invariant width s r where
  missing : r.filled < width
  asked : r.slice.length = width - r.filled
  nothing_iff : (mode.call r.slice.length r.source).1 = .ready (.ok []) ↔
    (mode.script r.source).Ended

section

variable {width : Nat} {s : mode.Source} {r next : Reading mode.Source}

theorem invariant_start (width : Nat) (s : mode.Source) :
    mode.Invariant width s (.start width s) where
  sized := List.length_replicate
  within := width.zero_le
  consumed := rfl

theorem Advance.invariant {bytes : Bytes} (advance : mode.Advance bytes r next)
    (holds : mode.Invariant width s r) : mode.Invariant width s next where
  sized := advance.sized.trans holds.sized
  within := advance.within.trans_eq (advance.sized.trans holds.sized)
  consumed := by
    rw [holds.consumed, advance.consumed, advance.arrived, List.append_assoc]

theorem answered_nothing_iff {n : Nat} (asked : 0 < n) (s : mode.Source) :
    (mode.call n s).1 = .ready (.ok []) ↔ (mode.script s).Ended := by
  constructor
  · intro nothing
    have answers := mode.answers_call asked s
    rw [nothing] at answers
    cases answers with
    | nothing ended => exact ended
    | data some => exact absurd rfl some
  · intro ended
    have answered := PollSource.call_ended (n := n) ended
    rwa [call_script] at answered

theorem Invariant.atCall (holds : mode.Invariant width s r) (missing : r.Missing) :
    mode.AtCall width s r where
  toInvariant := holds
  missing := holds.sized ▸ missing
  asked := holds.sized ▸ r.length_slice
  nothing_iff := answered_nothing_iff (r.length_slice ▸ Nat.sub_pos_of_lt missing) r.source

end

/-! ## Whole reads -/

section

variable {r : Reading mode.Source} {calls : List (Reading mode.Source)}
  {outcome : Except Shortfall Bytes} {rest : mode.Source}

theorem Run.atCall (run : mode.Run r calls outcome rest) {width : Nat} {s : mode.Source}
    (holds : mode.Invariant width s r) : ∀ c ∈ calls, mode.AtCall width s c := by
  induction run with
  | full => exact List.forall_mem_nil _
  | stop missing => exact List.forall_mem_singleton.mpr (holds.atCall missing)
  | again missing pass _ ih =>
    obtain ⟨bytes, advance⟩ := pass.exists_advance missing
    exact List.forall_mem_cons.mpr ⟨holds.atCall missing, ih (advance.invariant holds)⟩

theorem Run.head_eq (run : mode.Run r calls outcome rest) : ∀ c ∈ calls.head?, r = c := by
  cases run <;> simp

theorem Run.advances (run : mode.Run r calls outcome rest) :
    calls.IsChain fun c next => mode.Pass c next ∧ ∃ bytes, mode.Advance bytes c next := by
  induction run with
  | full => exact .nil
  | stop => exact .singleton _
  | again missing pass run ih =>
    refine List.isChain_cons.mpr ⟨?_, ih⟩
    intro c first
    rw [← run.head_eq c first]
    exact ⟨pass, pass.exists_advance missing⟩

theorem Run.collected (run : mode.Run r calls outcome rest) {width : Nat} {s : mode.Source}
    (holds : mode.Invariant width s r) {bytes : Bytes} (whole : outcome = .ok bytes) :
    bytes.length = width ∧ (mode.script s).contents = bytes ++ (mode.script rest).contents := by
  induction run with
  | full full =>
    cases whole
    have consumed := holds.consumed
    rw [Reading.arrived_full full] at consumed
    exact ⟨holds.sized, consumed⟩
  | stop => cases whole
  | again missing pass _ ih =>
    obtain ⟨_, advance⟩ := pass.exists_advance missing
    exact ih (advance.invariant holds) whole

end

/-! ## The calls of the loop -/

section

variable {σ : Type} [Readable σ mode.nothing] {r next : Reading σ} {calls : List (Reading σ)}
  {outcome : Except Shortfall Bytes} {rest : σ}

theorem fillFrom_called {answer : Poll (Except Fault Bytes)} (missing : r.Missing)
    (called : mode.call r.slice.length r.source = (answer, rest)) :
    mode.fillFrom r.buffer.length r.arrived r.source =
      mode.resume r.buffer.length r.arrived rest answer := by
  have length : r.arrived.length = r.filled := Reading.length_arrived (Nat.le_of_lt missing)
  have short : r.arrived.length < r.buffer.length := length ▸ missing
  have asked : r.slice.length = r.buffer.length - r.arrived.length := by
    rw [length, r.length_slice]
  exact fillFrom_call short (asked ▸ called)

theorem Stop.fillFrom_eq {short : Shortfall} (stop : mode.Stop r short rest)
    (missing : r.Missing) :
    mode.fillFrom r.buffer.length r.arrived r.source = (.error short, rest) := by
  cases stop with
  | endOfStream called =>
    rw [fillFrom_called missing called, resume, Reading.length_arrived (Nat.le_of_lt missing)]
  | fault called broken =>
    rw [fillFrom_called missing called, resume, if_neg broken]

theorem Pass.length_buffer (pass : mode.Pass r next) (missing : r.Missing) :
    next.buffer.length = r.buffer.length := by
  cases pass with
  | stored _ _ fits => exact Reading.length_store (Nat.le_of_lt missing) fits _
  | interrupted => rfl
  | suspended => rfl

theorem Pass.fillFrom_eq (pass : mode.Pass r next) (missing : r.Missing) :
    mode.fillFrom r.buffer.length r.arrived r.source =
      mode.fillFrom next.buffer.length next.arrived next.source := by
  rw [pass.length_buffer missing]
  cases pass with
  | @stored bytes rest called some fits =>
    -- the loop tells data from the end of the stream by the first byte
    obtain ⟨b, bs, rfl⟩ := List.exists_cons_of_ne_nil some
    rw [fillFrom_called missing called, resume, Reading.arrived_store (Nat.le_of_lt missing)]
    rfl
  | interrupted called kind =>
    rw [fillFrom_called missing called, resume, if_pos kind]
    rfl
  | suspended called =>
    rw [fillFrom_called missing called, resume]
    rfl

/-- A run ends as the loop does that it lists the calls of. -/
theorem Run.fillFrom_eq (run : mode.Run r calls outcome rest) :
    mode.fillFrom r.buffer.length r.arrived r.source = (outcome, rest) := by
  induction run with
  | full full =>
    rw [Reading.arrived_full full, fillFrom_full (Nat.le_refl _)]
  | stop missing stop => exact stop.fillFrom_eq missing
  | again missing pass _ ih => exact (pass.fillFrom_eq missing).trans ih

/-! ### Logs -/

variable (log : List (Nat × σ))

theorem call_logged {answer : Poll (Except Fault Bytes)}
    (called : mode.call r.slice.length r.source = (answer, rest)) :
    mode.call (r.logged log).slice.length (r.logged log).source =
      (answer, Logged.mk rest (log ++ [r.request])) :=
  congrArg (fun c => (c.1, Logged.mk c.2 (log ++ [r.request]))) called

theorem Stop.logged {short : Shortfall} (stop : mode.Stop r short rest) :
    mode.Stop (r.logged log) short ⟨rest, log ++ [r.request]⟩ := by
  cases stop with
  | endOfStream called => exact .endOfStream (call_logged log called)
  | fault called broken => exact .fault (call_logged log called) broken

theorem Pass.logged (pass : mode.Pass r next) :
    mode.Pass (r.logged log) (next.logged (log ++ [r.request])) := by
  cases pass with
  | stored called some fits => exact .stored (call_logged log called) some fits
  | interrupted called kind => exact .interrupted (call_logged log called) kind
  | suspended called => exact .suspended (call_logged log called)

/-- The run of a read whose source keeps a log leaves the calls of the read in the log. -/
theorem Run.logged (run : mode.Run r calls outcome rest) :
    ∃ noted, mode.Run (r.logged log) noted outcome ⟨rest, log ++ calls.map Reading.request⟩ := by
  induction run generalizing log with
  | full full =>
    rw [List.map_nil, List.append_nil]
    exact ⟨[], .full full⟩
  | stop missing stop => exact ⟨_, .stop missing (stop.logged log)⟩
  | @again r next calls outcome rest missing pass _ ih =>
    obtain ⟨noted, run⟩ := ih (log ++ [r.request])
    rw [List.append_assoc] at run
    exact ⟨_, .again missing (pass.logged log) run⟩

theorem Run.fillFrom_logged (run : mode.Run r calls outcome rest) :
    mode.fillFrom r.buffer.length r.arrived (Logged.mk r.source log) =
      (outcome, Logged.mk rest (log ++ calls.map Reading.request)) := by
  obtain ⟨noted, run⟩ := run.logged log
  exact run.fillFrom_eq

end

section

variable {calls : List (Reading mode.Source)} {outcome : Except Shortfall Bytes}
  {rest : mode.Source}

theorem Run.read_eq {k : Kind} {s : mode.Source}
    (run : mode.Run (.start k.size s) calls outcome rest) (route : Route) :
    (mode.endpoint route).read k s = ⟨Message.received k outcome, rest⟩ := by
  have ends := run.fillFrom_eq
  rw [(invariant_start k.size s).sized] at ends
  have collects : mode.fill k.size s = (outcome, rest) := (fillFrom_nil _ s).symm.trans ends
  rw [read_eq_fill, collects]

end

variable (mode) in
/-- Every read is a finite run of calls, and the calls are those that a source notes which keeps a
    log.  Each asks for exactly what is missing, of which there is something, behind the data
    consumed so far, and so no bytes in answer mean the end of the stream.  From one call to the
    next what is filled only grows, or an item is used up that asks for the call again, which
    bounds the number of calls. -/
theorem read_loop (route : Route) (k : Kind) (s : mode.Source) :
    (∃ calls outcome rest, mode.Run (.start k.size s) calls outcome rest) ∧
    ∀ calls outcome rest, mode.Run (.start k.size s) calls outcome rest →
      (mode.endpoint route).read k s = ⟨Message.received k outcome, rest⟩ ∧
      mode.fillFrom k.size [] (Logged.mk s []) =
        (outcome, Logged.mk rest (calls.map Reading.request)) ∧
      (∀ c ∈ calls, mode.AtCall k.size s c) ∧
      (calls.IsChain fun c next => mode.Pass c next ∧ ∃ bytes, mode.Advance bytes c next) ∧
      calls.length ≤ k.size + (mode.script s).retries + 1 ∧
      ∀ bytes, outcome = .ok bytes → bytes.length = k.size ∧
        (mode.script s).contents = bytes ++ (mode.script rest).contents := by
  have start := invariant_start k.size s
  refine ⟨exists_run _, ?_⟩
  intro calls outcome rest run
  refine ⟨run.read_eq route, ?_, run.atCall start, run.advances, ?_, fun _ => run.collected start⟩
  · have noted := run.fillFrom_logged []
    rwa [start.sized] at noted
  · have bound := run.length_le
    rwa [budget, start.sized] at bound

/-- A suspension, an interruption and two short chunks make four calls for a word of four bytes. -/
theorem read_loop_word32 :
    let s : PollSource := [.pending, .ready (.data ⟨1, [2]⟩),
      .ready (.fault ⟨.interrupted, "signal"⟩), .ready (.data ⟨3, [4, 5]⟩)]
    let rest : PollSource := [.ready (.data ⟨5, []⟩)]
    ∃ calls, suspending.Run (.start 4 s) calls (.ok [1, 2, 3, 4]) rest ∧
      suspending.fillFrom 4 [] (Logged.mk s []) = (.ok [1, 2, 3, 4],
        Logged.mk rest [(4, s), (4, s.drop 1), (2, s.drop 2), (2, s.drop 3)]) ∧
      (∀ c ∈ calls, suspending.AtCall 4 s c) ∧ calls.length ≤ 4 + 2 + 1 := by
  intro s rest
  let first : Reading PollSource := .start 4 s
  let second : Reading PollSource := { first with source := s.drop 1 }
  let third : Reading PollSource := second.store [1, 2] (s.drop 2)
  let fourth : Reading PollSource := { third with source := s.drop 3 }
  have suspended : suspending.Pass first second := .suspended rfl
  have stored : suspending.Pass second third :=
    .stored rfl (List.cons_ne_nil 1 [2]) (by decide)
  have interrupted : suspending.Pass third fourth := .interrupted rfl rfl
  have completed : suspending.Pass fourth (fourth.store [3, 4] rest) :=
    .stored rfl (List.cons_ne_nil 3 [4]) (by decide)
  have run : suspending.Run first [first, second, third, fourth] (.ok [1, 2, 3, 4]) rest :=
    .again (by decide) suspended <| .again (by decide) stored <|
      .again (by decide) interrupted <| .again (by decide) completed <| .full (by decide)
  obtain ⟨-, holds⟩ := read_loop .suspending .direct (.word .w32) s
  obtain ⟨-, noted, atCalls, -, bound, -⟩ := holds _ _ _ run
  exact ⟨_, run, noted, atCalls, bound⟩

end Mode

end Nbd
