import Nbd.Proofs.Stream.Mode

/-! # Two directions that do not meet

What a session reads and what it writes have nothing to do with each other.  The inbound
steps come out as if the outbound ones had never been made, whether those succeeded or not.
The outbound steps come out as if there had been no reading, once it is settled which request
each reply is to; and that is a matter of the last request read before it.  So two sessions
that order the same inbound and the same outbound steps differently do the same, as long as
no reply moves across the reading of a request.
-/

namespace Nbd

/-! ## Directions -/

namespace Step

/-- The step concerns the source. -/
def isInbound : Step → Bool
  | .read _ => true
  | .payload => true
  | .write _ => false
  | .reply _ => false

/-- The step concerns the sink. -/
def isOutbound (step : Step) : Bool := !step.isInbound

theorem not_outbound {step : Step} (inbound : step.isInbound = true) :
    ¬ step.isOutbound = true := by
  simp [isOutbound, inbound]

theorem outbound_iff {step : Step} : step.isOutbound = true ↔ step.isInbound = false := by
  simp [isOutbound]

/-- The reports of those steps that are on one side. -/
def reportsOf (side : Step → Bool) (steps : List Step) (reports : List Report) : List Report :=
  ((steps.zip reports).filter fun (step, _) => side step).map Prod.snd

section ReportsOf

variable {side : Step → Bool} {step : Step} {steps : List Step}
  {report : Report} {reports : List Report}

theorem reportsOf_cons_pos (on : side step = true) :
    reportsOf side (step :: steps) (report :: reports) =
      report :: reportsOf side steps reports := by
  simp [reportsOf, on]

theorem reportsOf_cons_neg (off : ¬ side step = true) :
    reportsOf side (step :: steps) (report :: reports) = reportsOf side steps reports := by
  simp [reportsOf, off]

end ReportsOf

/-- How many inbound steps come before the `n`-th outbound one. -/
def inboundBefore : List Step → Nat → Nat
  | [], _ => 0
  | step :: steps, n =>
    if step.isInbound then inboundBefore steps n + 1
    else match n with
      | 0 => 0
      | n + 1 => inboundBefore steps n

/-- The step with the request it replies to put in. -/
def resolved (lastRequest? : Option Request) : Step → Step
  | .reply error =>
    match lastRequest? with
    | some request => .write (.reply (.answering request error))
    | none => .reply error
  | step => step

/-- A report without what it says about the source. -/
def Report.sending (report : Report) : Outcome × List Event × Bytes :=
  (report.outcome, report.events, report.wrote)

def Report.request? (report : Report) : Option Request :=
  match report.outcome with
  | .received (.request request) => some request
  | _ => none

/-- The place of the last report of a request that was received. -/
def lastRequestRead? : List Report → Option Nat
  | [] => none
  | report :: reports =>
    match lastRequestRead? reports with
    | some place => some (place + 1)
    | none => report.request?.map fun _ => 0

theorem lastRequestRead?_lt {reports : List Report} {place : Nat}
    (last : lastRequestRead? reports = some place) : place < reports.length := by
  induction reports generalizing place with
  | nil => cases last
  | cons report reports ih =>
    rw [List.length_cons]
    simp only [lastRequestRead?] at last
    cases later : lastRequestRead? reports with
    | some found =>
      rw [later] at last
      cases last
      exact Nat.succ_lt_succ (ih later)
    | none =>
      rw [later, Option.map_eq_some_iff] at last
      obtain ⟨_, _, rfl⟩ := last
      exact Nat.succ_pos _

end Step

namespace Session

variable {σ τ : Type} (e : Endpoint σ τ)

/-- Where, among the inbound steps of a run, the last request was received before the `n`-th
    outbound step. -/
def requestReadBefore? (s : Session σ τ) (steps : List Step) (n : Nat) : Option Nat :=
  Step.lastRequestRead?
    ((Step.reportsOf Step.isInbound steps (s.run e steps).2).take (Step.inboundBefore steps n))

/-- The request that the `n`-th outbound step finds. -/
def requestAt? (s : Session σ τ) (steps : List Step) (n : Nat) : Option Request :=
  (s.run e ((steps.filter Step.isInbound).take (Step.inboundBefore steps n))).1.lastRequest?

/-- The outbound steps of a run, each with the request it replies to put in. -/
def outgoing (s : Session σ τ) : List Step → List Step
  | [] => []
  | step :: steps =>
    let later := (s.step e step).1.outgoing steps
    if step.isInbound then later else step.resolved s.lastRequest? :: later

/-! ## One step -/

/-- The sessions are alike but for their sinks. -/
structure SameInbound (s t : Session σ τ) : Prop where
  source : s.source = t.source
  lastRequest : s.lastRequest? = t.lastRequest?

variable {e} {s t : Session σ τ} {step : Step}

theorem step_inbound (inbound : step.isInbound = true) (same : s.SameInbound t) :
    (s.step e step).2 = (t.step e step).2 ∧ (s.step e step).1.SameInbound (t.step e step).1 ∧
      (s.step e step).1.sink = s.sink ∧ (s.step e step).2.wrote = [] := by
  obtain ⟨source, sink, lastRequest?⟩ := s
  obtain ⟨_, otherSink, _⟩ := t
  obtain ⟨rfl, rfl⟩ := same
  cases step with
  | read k =>
    simp only [Session.step, read]
    cases (e.read k source).result with
    | ok m => exact ⟨rfl, ⟨rfl, rfl⟩, rfl, rfl⟩
    | error failure => exact ⟨rfl, ⟨rfl, rfl⟩, rfl, rfl⟩
  | payload =>
    cases lastRequest? with
    | none => exact ⟨rfl, ⟨rfl, rfl⟩, rfl, rfl⟩
    | some request =>
      simp only [Session.step, withRequest, payload]
      cases request.payloadLength.result with
      | ok length => exact ⟨rfl, ⟨rfl, rfl⟩, rfl, rfl⟩
      | error failure => exact ⟨rfl, ⟨rfl, rfl⟩, rfl, rfl⟩
  | write m => cases inbound
  | reply error => cases inbound

theorem step_outbound_keeps (outbound : step.isInbound = false) :
    (s.step e step).1.SameInbound s := by
  cases step with
  | read k => cases outbound
  | payload => cases outbound
  | write m => exact ⟨rfl, rfl⟩
  | reply error =>
    obtain ⟨source, sink, lastRequest?⟩ := s
    cases lastRequest? with
    | none => exact ⟨rfl, rfl⟩
    | some request => exact ⟨rfl, rfl⟩

/-- With its request put in, an outbound step needs the sink alone. -/
theorem step_outbound (outbound : step.isInbound = false) (sink : s.sink = t.sink)
    (none : t.lastRequest? = none) :
    let alone := t.step e (step.resolved s.lastRequest?)
    (s.step e step).2.sending = alone.2.sending ∧ (s.step e step).1.sink = alone.1.sink ∧
      alone.1.lastRequest? = .none := by
  obtain ⟨source, _, lastRequest?⟩ := s
  obtain ⟨otherSource, sink, _⟩ := t
  obtain rfl := sink
  obtain rfl := none
  cases step with
  | read k => cases outbound
  | payload => cases outbound
  | write m => exact ⟨rfl, rfl, rfl⟩
  | reply error =>
    cases lastRequest? with
    | none => exact ⟨rfl, rfl, rfl⟩
    | some request => exact ⟨rfl, rfl, rfl⟩

/-- The request remembered after a step is the one it received, or the one before. -/
theorem lastRequest_step : (s.step e step).1.lastRequest? =
    ((s.step e step).2.request?).or s.lastRequest? := by
  obtain ⟨source, sink, lastRequest?⟩ := s
  cases step with
  | read k =>
    simp only [Session.step, read]
    cases (e.read k source).result with
    | ok m => cases m <;> rfl
    | error failure => rfl
  | payload =>
    cases lastRequest? with
    | none => rfl
    | some request =>
      simp only [Session.step, withRequest, payload]
      cases request.payloadLength.result with
      | ok length => rfl
      | error failure => rfl
  | write m =>
    simp only [Session.step, write]
    cases (e.write m sink).result with
    | ok done => rfl
    | error failure => rfl
  | reply error =>
    cases lastRequest? with
    | none => rfl
    | some request =>
      simp only [Session.step, withRequest, write]
      cases (e.write _ sink).result with
      | ok done => rfl
      | error failure => rfl

/-! ## The inbound side of a run -/

theorem SameInbound.refl (s : Session σ τ) : s.SameInbound s := ⟨rfl, rfl⟩

theorem SameInbound.symm (same : s.SameInbound t) : t.SameInbound s :=
  ⟨same.source.symm, same.lastRequest.symm⟩

theorem SameInbound.trans {u : Session σ τ} (first : s.SameInbound t) (second : t.SameInbound u) :
    s.SameInbound u :=
  ⟨first.source.trans second.source, first.lastRequest.trans second.lastRequest⟩

/-- The inbound steps of a run report what they report without the others. -/
theorem run_inbound (steps : List Step) (same : s.SameInbound t) :
    let alone := t.run e (steps.filter Step.isInbound)
    Step.reportsOf Step.isInbound steps (s.run e steps).2 = alone.2 ∧
      (s.run e steps).1.SameInbound alone.1 := by
  induction steps generalizing s t with
  | nil => exact ⟨rfl, same⟩
  | cons step steps ih =>
    cases side : step.isInbound with
    | true =>
      obtain ⟨report, after, _⟩ := step_inbound (e := e) side same
      obtain ⟨reports, final⟩ := ih after
      rw [List.filter_cons_of_pos side]
      simp only [run, Step.reportsOf_cons_pos side]
      exact ⟨congrArg₂ _ report reports, final⟩
    | false =>
      -- the step leaves alone all that the rest of the run reads from
      obtain ⟨reports, final⟩ := ih ((step_outbound_keeps (e := e) side).trans same)
      have skipped : ¬ step.isInbound = true := Bool.not_eq_true _ ▸ side
      rw [List.filter_cons_of_neg skipped]
      simp only [run, Step.reportsOf_cons_neg skipped]
      exact ⟨reports, final⟩

theorem run_inbound_congr {steps others : List Step} (same : s.SameInbound t)
    (inbound : steps.filter Step.isInbound = others.filter Step.isInbound) :
    Step.reportsOf Step.isInbound steps (s.run e steps).2 =
        Step.reportsOf Step.isInbound others (t.run e others).2 ∧
      (s.run e steps).1.SameInbound (t.run e others).1 := by
  obtain ⟨reports, final⟩ := run_inbound (e := e) steps same
  obtain ⟨otherReports, otherFinal⟩ := run_inbound (e := e) others (SameInbound.refl t)
  rw [inbound] at reports final
  exact ⟨reports.trans otherReports.symm, final.trans otherFinal.symm⟩

/-! ## The outbound side of a run -/

/-- The outbound steps of a run report, of the sink, what they report when they are made alone,
    each with its request put in. -/
theorem run_outbound (steps : List Step) (sink : s.sink = t.sink)
    (none : t.lastRequest? = none) :
    let alone := t.run e (s.outgoing e steps)
    (Step.reportsOf Step.isOutbound steps (s.run e steps).2).map Step.Report.sending =
        alone.2.map Step.Report.sending ∧
      (s.run e steps).1.sink = alone.1.sink := by
  induction steps generalizing s t with
  | nil => exact ⟨rfl, sink⟩
  | cons step steps ih =>
    cases side : step.isInbound with
    | true =>
      -- what the step changes for later replies is already in `outgoing`
      obtain ⟨_, _, kept, _⟩ := step_inbound (e := e) side (SameInbound.refl s)
      have skipped := Step.not_outbound side
      obtain ⟨reports, final⟩ := ih (kept.trans sink) none
      simp only [run, outgoing, side, if_true, Step.reportsOf_cons_neg skipped]
      exact ⟨reports, final⟩
    | false =>
      have taken := Step.outbound_iff.mpr side
      obtain ⟨report, after, still⟩ := step_outbound (e := e) side sink none
      obtain ⟨reports, final⟩ := ih after still
      simp only [run, outgoing, side, Bool.false_eq_true, if_false,
        Step.reportsOf_cons_pos taken, List.map_cons]
      exact ⟨congrArg₂ _ report reports, final⟩

theorem run_outbound_congr {steps others : List Step} (sink : s.sink = t.sink)
    (same : s.outgoing e steps = t.outgoing e others) :
    (Step.reportsOf Step.isOutbound steps (s.run e steps).2).map Step.Report.sending =
        (Step.reportsOf Step.isOutbound others (t.run e others).2).map Step.Report.sending ∧
      (s.run e steps).1.sink = (t.run e others).1.sink := by
  -- both runs agree with one that never reads and has no request to start with
  let alone : Session σ τ := { t with lastRequest? := none }
  obtain ⟨reports, final⟩ := run_outbound (e := e) (t := alone) steps sink rfl
  obtain ⟨others, otherFinal⟩ := run_outbound (e := e) (s := t) (t := alone) others rfl rfl
  rw [same] at reports final
  exact ⟨reports.trans others.symm, final.trans otherFinal.symm⟩

/-- All that a run wrote, its outbound steps wrote. -/
theorem run_wrote (e : Endpoint σ τ) (s : Session σ τ) (steps : List Step) :
    (s.run e steps).2.flatMap Step.Report.wrote =
      ((Step.reportsOf Step.isOutbound steps (s.run e steps).2).map Step.Report.sending).flatMap
        fun (_, _, wrote) => wrote := by
  induction steps generalizing s with
  | nil => rfl
  | cons step steps ih =>
    cases side : step.isInbound with
    | true =>
      obtain ⟨_, _, _, silent⟩ := step_inbound (e := e) side (SameInbound.refl s)
      have skipped := Step.not_outbound side
      simp only [run, Step.reportsOf_cons_neg skipped, List.flatMap_cons, silent, List.nil_append]
      exact ih _
    | false =>
      have taken := Step.outbound_iff.mpr side
      simp only [run, Step.reportsOf_cons_pos taken, List.map_cons, List.flatMap_cons]
      exact congrArg ((s.step e step).2.wrote ++ ·) (ih _)

/-! ## The request a reply finds -/

theorem run_take (e : Endpoint σ τ) (s : Session σ τ) (steps : List Step) (n : Nat) :
    (s.run e (steps.take n)).2 = (s.run e steps).2.take n := by
  induction steps generalizing s n with
  | nil => rw [List.take_nil, run, List.take_nil]
  | cons step steps ih =>
    cases n with
    | zero => rfl
    | succ n => exact congrArg _ (ih _ n)

/-- The request remembered after a run is the last one it received, or the one before. -/
theorem lastRequest_run (e : Endpoint σ τ) (s : Session σ τ) (steps : List Step) :
    (s.run e steps).1.lastRequest? =
      (Step.lastRequestRead? (s.run e steps).2).elim s.lastRequest? fun place =>
        (s.run e steps).2[place]?.bind Step.Report.request? := by
  induction steps generalizing s with
  | nil => rfl
  | cons step steps ih =>
    simp only [run, Step.lastRequestRead?]
    rw [ih]
    cases Step.lastRequestRead? ((s.step e step).1.run e steps).2 with
    | some place => rfl
    | none =>
      rw [Option.elim_none, lastRequest_step]
      cases received : (s.step e step).2.request? with
      | none => rfl
      | some request => exact received.symm

/-- Two prefixes of a run with the same request as their last leave the same remembered. -/
theorem lastRequest_take {steps : List Step} {n k : Nat}
    (same : Step.lastRequestRead? ((s.run e steps).2.take n) =
      Step.lastRequestRead? ((s.run e steps).2.take k)) :
    (s.run e (steps.take n)).1.lastRequest? = (s.run e (steps.take k)).1.lastRequest? := by
  rw [lastRequest_run, lastRequest_run, run_take, run_take, same]
  cases last : Step.lastRequestRead? ((s.run e steps).2.take k) with
  | none => rfl
  | some place =>
    -- the place lies within both prefixes, so both find the same report there
    have before := Step.lastRequestRead?_lt last
    have before' := Step.lastRequestRead?_lt (same.trans last)
    rw [List.length_take, Nat.lt_min] at before before'
    simp only [Option.elim_some]
    rw [List.getElem?_take_of_lt before.1, List.getElem?_take_of_lt before'.1]

/-- The request an outbound step finds is a matter of the inbound steps before it. -/
theorem getElem?_outgoing (steps : List Step) (n : Nat) :
    (s.outgoing e steps)[n]? =
      (steps.filter Step.isOutbound)[n]?.map (Step.resolved (s.requestAt? e steps n)) := by
  induction steps generalizing s n with
  | nil => rfl
  | cons step steps ih =>
    cases side : step.isInbound with
    | true =>
      have skipped := Step.not_outbound side
      rw [List.filter_cons_of_neg skipped]
      simp only [outgoing, requestAt?, side, if_true, Step.inboundBefore,
        List.filter_cons_of_pos, List.take_succ_cons, run]
      exact ih n
    | false =>
      have taken := Step.outbound_iff.mpr side
      have skipped : ¬ step.isInbound = true := by simp [side]
      rw [List.filter_cons_of_pos taken]
      simp only [outgoing, requestAt?, side, Bool.false_eq_true, if_false]
      rw [List.filter_cons_of_neg skipped]
      cases n with
      | zero => simp [Step.inboundBefore, side, run]
      | succ n =>
        simp only [Step.inboundBefore, side, Bool.false_eq_true, if_false,
          List.getElem?_cons_succ]
        -- the outbound step in front makes no difference to the inbound side
        have same := step_outbound_keeps (e := e) (s := s) side
        rw [ih, requestAt?, (run_inbound_congr same rfl).2.lastRequest]

theorem outgoing_congr {steps others : List Step}
    (outbound : steps.filter Step.isOutbound = others.filter Step.isOutbound)
    (replies : ∀ n error, (steps.filter Step.isOutbound)[n]? = some (.reply error) →
      s.requestAt? e steps n = t.requestAt? e others n) :
    s.outgoing e steps = t.outgoing e others := by
  refine List.ext_getElem? fun n => ?_
  rw [getElem?_outgoing, getElem?_outgoing, ← outbound]
  cases next : (steps.filter Step.isOutbound)[n]? with
  | none => rfl
  | some step =>
    cases step with
    | read k => rfl
    | payload => rfl
    | write m => rfl
    | reply error => rw [replies n error next]

/-- Replies after the same last request find the same request. -/
theorem requestAt?_eq_of_requestReadBefore? {steps others : List Step} {n : Nat}
    (inbound : steps.filter Step.isInbound = others.filter Step.isInbound)
    (before : s.requestReadBefore? e steps n = s.requestReadBefore? e others n) :
    s.requestAt? e steps n = s.requestAt? e others n := by
  have alone := (run_inbound (e := e) steps (SameInbound.refl s)).1
  have otherAlone := (run_inbound (e := e) others (SameInbound.refl s)).1
  rw [requestReadBefore?, requestReadBefore?, alone, otherAlone, ← inbound] at before
  rw [requestAt?, requestAt?, ← inbound]
  exact lastRequest_take before

/-! ## Interleavings -/

theorem lastRequest_of_failed {failure : Failure}
    (failed : (s.step e step).2.outcome = .failed failure) :
    (s.step e step).1.lastRequest? = s.lastRequest? := by
  rw [lastRequest_step, Step.Report.request?, failed]
  rfl

theorem outbound_of_failed_read {k : Kind} {failure : Failure} {steps : List Step}
    (failed : (s.step e (.read k)).2.outcome = .failed failure)
    (replies : ∀ n error, (steps.filter Step.isOutbound)[n]? = some (.reply error) →
      Step.inboundBefore steps n = 0) :
    let after := (s.step e (.read k)).1
    (Step.reportsOf Step.isOutbound steps (after.run e steps).2).map Step.Report.sending =
        (Step.reportsOf Step.isOutbound steps (s.run e steps).2).map Step.Report.sending ∧
      (after.run e steps).1.sink = (s.run e steps).1.sink := by
  intro after
  have kept : after.sink = s.sink := (step_inbound (e := e) rfl (SameInbound.refl s)).2.2.1
  refine run_outbound_congr kept (outgoing_congr rfl ?_)
  intro n error found
  rw [requestAt?, requestAt?, replies n error found]
  exact lastRequest_of_failed failed

/-- How a session orders what it reads against what it writes makes no difference, as long as
    each reply comes after the reading of the same request.  It does not matter to what is
    written that a read before it failed, if any replies come before the reading goes on; and it
    does not matter to what is read what was sent before it, or whether that failed. -/
theorem interleavings_agree (mode : Mode) (route : Route) (s : Session mode.Source mode.Sink)
    (steps others : List Step)
    (inbound : steps.filter Step.isInbound = others.filter Step.isInbound)
    (outbound : steps.filter Step.isOutbound = others.filter Step.isOutbound)
    (replies : ∀ n error, (steps.filter Step.isOutbound)[n]? = some (.reply error) →
      s.requestReadBefore? (mode.endpoint route) steps n =
        s.requestReadBefore? (mode.endpoint route) others n) :
    let e := mode.endpoint route
    let run := s.run e steps
    let other := s.run e others
    (Step.reportsOf Step.isInbound steps run.2 = Step.reportsOf Step.isInbound others other.2 ∧
        (Step.reportsOf Step.isOutbound steps run.2).map Step.Report.sending =
          (Step.reportsOf Step.isOutbound others other.2).map Step.Report.sending ∧
        run.2.flatMap Step.Report.wrote = other.2.flatMap Step.Report.wrote ∧
        run.1 = other.1) ∧
      (∀ k failure later, (s.step e (.read k)).2.outcome = .failed failure →
        (∀ n error, (later.filter Step.isOutbound)[n]? = some (.reply error) →
          Step.inboundBefore later n = 0) →
        let spared := s.run e later
        let after := (s.step e (.read k)).1.run e later
        (Step.reportsOf Step.isOutbound later after.2).map Step.Report.sending =
            (Step.reportsOf Step.isOutbound later spared.2).map Step.Report.sending ∧
          after.1.sink = spared.1.sink) ∧
      ∀ step later, step.isOutbound = true →
        let spared := s.run e later
        let after := (s.step e step).1.run e later
        Step.reportsOf Step.isInbound later after.2 = Step.reportsOf Step.isInbound later spared.2 ∧
          after.1.SameInbound spared.1 := by
  intro e run other
  refine ⟨?agree, ?afterRead, ?afterWrite⟩
  case agree =>
    have outgoing : s.outgoing e steps = s.outgoing e others :=
      outgoing_congr outbound fun n error found =>
        requestAt?_eq_of_requestReadBefore? inbound (replies n error found)
    obtain ⟨received, source, lastRequest⟩ :=
      run_inbound_congr (e := e) (SameInbound.refl s) inbound
    obtain ⟨sent, sink⟩ := run_outbound_congr (e := e) rfl outgoing
    refine ⟨received, sent, ?_, ?_⟩
    · rw [run_wrote, run_wrote, sent]
    · exact (Session.mk.injEq ..).mpr ⟨source, sink, lastRequest⟩
  case afterRead =>
    intro k failure later failed repliesFirst
    exact outbound_of_failed_read failed repliesFirst
  case afterWrite =>
    intro step later outward
    have kept := step_outbound_keeps (e := e) (s := s) (Step.outbound_iff.mp outward)
    exact run_inbound_congr kept rfl

theorem interleavings_agree_replied :
    let reset : Fault := ⟨⟨"ConnectionReset"⟩, "reset"⟩
    let request : Request := .of .read .empty 42 0 2
    let word : Message := .word (.w16 7)
    let steps : List Step :=
      [.write word, .read (.word .w16), .read .request, .read .reply, .reply none]
    let others : List Step :=
      [.read (.word .w16), .read .request, .write word, .reply none, .read .reply]
    let s : Session PollSource PollSink := {
      source := .ready (.fault reset) :: .pending ::
        (Source.push (Message.request request).encode [.data ⟨1, []⟩]).map .ready
      sink := [.pending, .ready (.accept 0), .ready (.accept 5), .pending, .ready (.accept 20)] }
    let e := Mode.suspending.endpoint .dispatched
    let run := s.run e steps
    let other := s.run e others
    let later : List Step := [.reply none, .read .request, .write word]
    steps.filter Step.isInbound = others.filter Step.isInbound ∧
      steps.filter Step.isOutbound = others.filter Step.isOutbound ∧
      (∀ n error, (steps.filter Step.isOutbound)[n]? = some (.reply error) →
        s.requestReadBefore? e steps n = s.requestReadBefore? e others n) ∧
      run.2.map Step.Report.outcome = [.failed (.sink Suspending.noProgress),
        .failed (.source reset), .received (.request request), .failed (.truncated 16 1), .sent] ∧
      run.2.flatMap Step.Report.wrote = (Message.reply (Reply.answering request none)).encode ∧
      run.2.flatMap Step.Report.wrote = other.2.flatMap Step.Report.wrote ∧
      run.1 = other.1 ∧
      ((s.step e (.read (.word .w16))).1.run e later).1.sink = (s.run e later).1.sink ∧
      ((s.step e (.write word)).1.run e later).1.SameInbound (s.run e later).1 := by
  intro reset request word steps others s e run other later
  have replies : ∀ n error, (steps.filter Step.isOutbound)[n]? = some (.reply error) →
      s.requestReadBefore? e steps n = s.requestReadBefore? e others n := by
    intro n error found
    match n with
    | 0 => cases found
    | 1 => decide +kernel
    | n + 2 => cases found
  have repliesFirst : ∀ n error, (later.filter Step.isOutbound)[n]? = some (.reply error) →
      Step.inboundBefore later n = 0 := by
    intro n error found
    match n with
    | 0 => rfl
    | 1 => cases found
    | n + 2 => cases found
  obtain ⟨⟨_, _, wrote, final⟩, afterRead, afterWrite⟩ :=
    interleavings_agree .suspending .dispatched s steps others rfl rfl replies
  have failed : (s.step e (.read (.word .w16))).2.outcome = .failed (.source reset) := by
    decide +kernel
  exact ⟨rfl, rfl, replies, by decide +kernel, by decide +kernel, wrote, final,
    (afterRead _ _ later failed repliesFirst).2, (afterWrite (.write word) later rfl).2⟩

end Session

end Nbd
