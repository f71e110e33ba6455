import DurableFlow.Proofs.Supplies
import DurableFlow.Samples.Echo

/-! # Conversations

A flow converses if it does nothing but wait for sessions, and is determined by what it hears. What it
says then depends on the items that are supplied to it, but not on which of them happen to be kept when
it is resumed: `Converses` follows the outlines of its checkpoints from one call to the next, and two
conversations from one outline that have both come to an end are the same, `Converses.confluent`. An
echo is a flow that converses, `Samples.Echo.conversational`.
-/

namespace DurableFlow

open Stateful

variable {σ : Type}

/-- What flow logic can see, but for the time. -/
def Context.undated (ctx : Context) : Context := { ctx with now := .epoch }

/-- A call, but for its time. -/
def Call.undated (call : Call) : Call := { call with context := call.context.undated }

theorem Checkpoint.undated_of_outline {cp other : Checkpoint} (same : cp.outline = other.outline)
    (now later : Timestamp) : (Context.ofCheckpoint cp now).undated =
      (Context.ofCheckpoint other later).undated := by
  rw [← ofCheckpoint_outline cp, ← ofCheckpoint_outline other, same]
  rfl

/-- A flow that is determined by what it is given except the time, waits for nothing but sessions, none
of which it names twice, and never fails in a way that is retried. -/
structure Flow.Conversational (flow : Flow σ) : Prop where
  timeless : ∀ (call again : Call) (effects effects' : Effects), call.Of flow effects →
    again.Of flow effects' → again.input = call.input → again.context.undated = call.context.undated →
      again.result = call.result ∧ effects' = effects
  listens : ∀ (call : Call) (effects : Effects) (state : Bytes) (request : Request),
    call.Of flow effects → call.result = .ok (.suspend state request) → request.Listens
  steady : ∀ (call : Call) (effects : Effects) (halt : Halt), call.Of flow effects →
    call.result = .error halt → halt.flowError.isRetryable = false

namespace Call

variable {flow : Flow σ} {serializer : FiberSerializer} {cp other : Checkpoint} {call : Call}

theorem Yields.listens (conversational : flow.Conversational) {effects : Effects}
    (of : call.Of flow effects) {outcome : FiberOutcome}
    (yields : Yields serializer cp call.result outcome) : outcome.Listens := by
  generalize ended : call.result = result at yields
  cases yields with
  | failed => exact conversational.steady call effects _ of ended
  | completed => trivial
  | suspended => exact conversational.listens call effects _ _ of ended

theorem Yields.unique {result : Except Halt RawStep} {outcome outcome' : FiberOutcome}
    (yields : Yields serializer cp result outcome) (again : Yields serializer other result outcome')
    (flowId : cp.flowId = other.flowId) (flowName : cp.flowName = other.flowName) :
    outcome' = outcome := by
  cases yields with
  | failed | completed =>
      cases again
      rfl
  | suspended written =>
      cases again with
      | suspended written' =>
          rw [← flowId, ← flowName, written] at written'
          cases written'
          rfl

end Call

/-- A flow is over, or waits for sessions, none of which it names twice. -/
def Checkpoint.Listens (cp : Checkpoint) : Prop :=
  cp.waitingFor = .nothing ∨
    ∃ awaited deadline, cp.waitingFor = .sessions awaited deadline ∧ awaited.Nodup

theorem Checkpoint.Listens.once {cp : Checkpoint} (listens : cp.Listens) {awaited : List SessionId}
    {deadline : Option Timestamp} (wait : cp.waitingFor = .sessions awaited deadline) :
    awaited.Nodup := by
  rcases listens with nothing | ⟨_, _, wait', once⟩
  · rw [wait] at nothing
    cases nothing
  · rw [wait] at wait'
    cases wait'
    exact once

/-- A flow is over, or waits for sessions that have not all delivered. -/
structure Checkpoint.Rests (cp : Checkpoint) : Prop where
  listens : cp.Listens
  unready : cp.takeReady? = none

namespace Draft

/-- A call of a flow on a draft, and the draft after its outcome has been written. -/
structure Replies (flow : Flow σ) (serializer : FiberSerializer) (settings : Settings)
    (attempt : Attempt) (draft : Draft) (call : Call) (written : Draft) : Prop where
  input : draft.checkpoint.EntersWith serializer attempt call.input
  context : call.context = Context.ofCheckpoint draft.checkpoint settings.now
  course : ∃ effects outcome, call.Of flow effects ∧
    Call.Yields serializer draft.checkpoint call.result outcome ∧
    draft.write outcome effects attempt settings.config settings.now = .ok written

variable {flow : Flow σ} {code : Code σ} {serializer : FiberSerializer} {settings : Settings}
  {attempt : Attempt} {draft written : Draft} {call : Call}

theorem Makes.replies {effects : Effects} {outcome : FiberOutcome} {result : Draft × Next}
    (known : code.registry.get? draft.checkpoint.flowName = some flow)
    (makes : draft.Makes code settings.now attempt call effects)
    (yields : Call.Yields code.serializer draft.checkpoint call.result outcome)
    (applied : draft.applyOutcome outcome effects attempt settings.config settings.now = .ok result) :
    ∃ written, draft.Replies flow code.serializer settings attempt call written ∧
      written.answerWait = result := by
  obtain ⟨written, wrote, same⟩ := write_of_applyOutcome applied
  obtain ⟨other, known', of⟩ := makes.logic
  rw [known] at known'
  cases known'
  exact ⟨written, ⟨makes.input, makes.context, effects, outcome, of, yields, wrote⟩, same⟩

namespace Replies

theorem drains (replies : draft.Replies flow serializer settings attempt call written) :
    DurableFlow.Drains draft.checkpoint.sessions written.checkpoint.sessions := by
  obtain ⟨_, _, _, _, wrote⟩ := replies.course
  exact write_drains wrote

theorem alike (conversational : flow.Conversational) {other written' : Draft} {again : Call}
    {settings' : Settings} {sent sent' : List Record} (same : draft.Alike sent sent' other)
    (replies : draft.Replies flow serializer settings attempt call written)
    (replies' : other.Replies flow serializer settings' attempt again written')
    (untimed : settings.config.suspensionTimeout = none)
    (untimed' : settings'.config.suspensionTimeout = none) :
    again.undated = call.undated ∧ written.Alike sent sent' written' := by
  obtain ⟨effects, outcome, of, yields, wrote⟩ := replies.course
  obtain ⟨effects', outcome', of', yields', wrote'⟩ := replies'.course
  have field {α : Type} (f : Checkpoint → α) : f draft.checkpoint.outline = f other.checkpoint.outline :=
    congrArg f same.outline
  have input : again.input = call.input :=
    replies.input.unique replies'.input (field (·.continuation)).symm (field (·.startArgs)).symm
  have context : again.context.undated = call.context.undated := by
    rw [replies.context, replies'.context]
    exact Checkpoint.undated_of_outline same.outline.symm _ _
  obtain ⟨result, rfl⟩ := conversational.timeless call again effects effects' of of' input context
  rw [result] at yields'
  cases yields.unique yields' (field (·.flowId)) (field (·.flowName))
  refine ⟨?_, write_agree (yields.listens conversational of) _ attempt attempt untimed untimed'
    settings.now settings'.now same wrote wrote'⟩
  rw [Call.undated, Call.undated, input, context, result]

theorem items (conversational : flow.Conversational)
    (replies : draft.Replies flow serializer settings attempt call written)
    (untimed : settings.config.suspensionTimeout = none) :
    ∃ sent, written.items = draft.items ++ sent := by
  obtain ⟨_, same⟩ := replies.alike conversational (.of_outline rfl) replies untimed untimed
  obtain ⟨more, sent, _⟩ := same.items
  exact ⟨more, sent⟩

/-- After a call a conversational flow is over, or waits for sessions, none of which it names twice. -/
theorem listens (conversational : flow.Conversational)
    (replies : draft.Replies flow serializer settings attempt call written) :
    written.checkpoint.Listens := by
  obtain ⟨effects, outcome, of, yields, wrote⟩ := replies.course
  have listens := yields.listens conversational of
  cases outcome with
  | suspended request continuation =>
      simp only [write, park, bind_eq_ok] at wrote
      obtain ⟨_, _, deadline, _, ⟨worked, wait⟩, began, moved⟩ := wrote
      obtain ⟨_, rfl⟩ := setStatus_ok.1 moved
      have waits : ∃ ids : List SessionId, ids.Nodup ∧ wait = .sessions ids deadline := by
        obtain ⟨ids, once, rfl | ⟨messages, rfl⟩⟩ := listens
        · cases began
          exact ⟨ids, once, rfl⟩
        · simp only [beginWait, bind_eq_ok, pure_eq_ok, Prod.mk.injEq] at began
          obtain ⟨_, _, _, rfl⟩ := began
          exact ⟨ids, once, rfl⟩
      obtain ⟨ids, once, rfl⟩ := waits
      cases deadline <;> exact .inr ⟨ids, _, rfl, once⟩
  | completed output =>
      obtain ⟨_, _, _, rest⟩ := complete_ok wrote
      rw [rest]
      exact .inl rfl
  | failed error =>
      have final : error.isRetryable = false := listens
      simp only [write, final, Bool.false_eq_true, false_and, if_false] at wrote
      obtain ⟨_, _, _, rest⟩ := fail_ok wrote
      rw [rest]
      exact .inl rfl

end Replies

end Draft

/-- The calls of a flow, and the items it sends, from one outline of its checkpoint to another one. It
is called when its wait ends with some of what is supplied. -/
inductive Converses (flow : Flow σ) (serializer : FiberSerializer) (supply : Supply) :
    Checkpoint → List Call → List Record → Checkpoint → Prop where
  | rest {outline : Checkpoint} : Converses flow serializer supply outline [] [] outline
  | turn {outline held taken last : Checkpoint} {records sent later : List Record} {value : Resumed}
      {settings : Settings} {call : Call} {calls : List Call} {written : Draft}
      (same : held.outline = outline) (within : Within supply held.sessions) (listens : held.Listens)
      (ready : held.takeReady? = some (value, taken))
      (untimed : settings.config.suspensionTimeout = none)
      (replies : (Draft.running ⟨taken, records⟩).Replies flow serializer settings (.resume value) call
        written)
      (tells : written.items = (Draft.mk taken records).items ++ sent)
      (rest : Converses flow serializer supply written.checkpoint.outline calls later last) :
      Converses flow serializer supply outline (call :: calls) (sent ++ later) last

/-- No supplied items end the wait of a flow. -/
def Spent (supply : Supply) (outline : Checkpoint) : Prop :=
  ∀ held : Checkpoint, held.outline = outline → Within supply held.sessions → held.takeReady? = none

namespace Converses

variable {flow : Flow σ} {serializer : FiberSerializer} {supply : Supply}
  {outline middle last last' : Checkpoint} {calls calls' : List Call} {sent sent' : List Record}

theorem trans (first : Converses flow serializer supply outline calls sent middle)
    (second : Converses flow serializer supply middle calls' sent' last) :
    Converses flow serializer supply outline (calls ++ calls') (sent ++ sent') last := by
  induction first with
  | rest => exact second
  | turn same within listens ready untimed replies tells rest ih =>
      rw [List.append_assoc]
      exact .turn same within listens ready untimed replies tells (ih second)

/-- Two conversations from one outline that have both come to an end are the same. -/
theorem confluent (conversational : flow.Conversational) (single : supply.Single)
    (first : Converses flow serializer supply outline calls sent last)
    (second : Converses flow serializer supply outline calls' sent' last')
    (spent : Spent supply last) (spent' : Spent supply last') :
    calls'.map Call.undated = calls.map Call.undated ∧ sent' = sent ∧ last' = last := by
  induction first generalizing calls' sent' last' with
  | rest =>
      cases second with
      | rest => exact ⟨rfl, rfl, rfl⟩
      | turn same within listens ready =>
          rw [spent _ same within] at ready
          cases ready
  | @turn outline held taken last records sent later value settings call calls written same within listens
      ready untimed replies tells rest ih =>
      cases second with
      | rest =>
          rw [spent' held same within] at ready
          cases ready
      | @turn _ held' taken' _ records' sent'' later' value' settings' call' calls'' written' same'
          within' _ ready' untimed' replies' tells' rest' =>
          have outlines := same.trans same'.symm
          obtain ⟨rfl, taken⟩ := Checkpoint.takeReady?_outline outlines
            (fun _ _ => listens.once)
            (fun _ _ _ => Checkpoint.next_of_single single (congrArg (·.sessions) outlines) within within')
            ready ready'
          have alike := Draft.Alike.of_outline (a := .running ⟨_, records⟩) (b := .running ⟨_, records'⟩)
            (congrArg (fun cp : Checkpoint => { cp with status := .running }) taken)
          obtain ⟨undated, alike⟩ := replies.alike conversational alike replies' untimed untimed'
          obtain ⟨more, tells₁, tells₂⟩ := alike.items
          have more₁ : sent = more := List.append_cancel_left (tells.symm.trans tells₁)
          have more₂ : sent'' = more := List.append_cancel_left (tells'.symm.trans tells₂)
          rw [← alike.outline] at rest'
          obtain ⟨calls, rfl, rfl⟩ := ih rest' spent spent'
          refine ⟨?_, by rw [more₁, more₂], rfl⟩
          rw [List.map_cons, List.map_cons, undated, calls]

end Converses

namespace Draft

theorem takeReady?_of_answerWait {written taken : Draft} {value : Resumed}
    (listens : written.checkpoint.Listens) (answered : written.answerWait = (taken, .resume value)) :
    ∃ cp, written.checkpoint.takeReady? = some (value, cp) ∧ taken = ⟨cp, written.records⟩ := by
  rcases listens with nothing | ⟨awaited, deadline, wait, _⟩
  · rw [answerWait_of_over nothing] at answered
    cases answered
  · simp only [answerWait, wait] at answered
    rcases ended : written.checkpoint.takeReady with ⟨_ | answer, after⟩
    · rw [ended] at answered
      cases answered
    · rw [ended] at answered
      cases answered
      exact ⟨_, Checkpoint.takeReady?_eq_some_iff.2 ended, rfl⟩

section Turns

variable {flow : Flow σ} {code : Code σ} {settings : Settings} {supply : Supply}

theorem Turns.rests (conversational : flow.Conversational) {attempt : Attempt} {draft after : Draft}
    {calls : List Call} (turns : draft.Turns code settings attempt calls (some after))
    (known : code.registry.get? draft.checkpoint.flowName = some flow) : after.checkpoint.Rests := by
  generalize same : some after = left at turns
  induction turns with
  | unentered | stopped => cases same
  | done makes yields applied =>
      cases same
      obtain ⟨written, replies, answered⟩ := makes.replies known yields applied
      have unready := (waits_of_answerWait answered).unready
      cases eq_of_answerWait_done answered
      exact ⟨replies.listens conversational, unready⟩
  | again makes yields applied rest ih =>
      have flowName := (applyOutcome_ok applied).sameFlow.flowName
      exact ih ((congrArg code.registry.get? flowName).trans known) same

/-- A turn that begins with the end of a wait goes on with the conversation. -/
theorem Turns.converses (conversational : flow.Conversational)
    (untimed : settings.config.suspensionTimeout = none) {held taken : Checkpoint} {value : Resumed}
    {records : List Record} {after : Draft} {calls : List Call}
    (known : code.registry.get? taken.flowName = some flow) (listens : held.Listens)
    (within : Within supply held.sessions) (ready : held.takeReady? = some (value, taken))
    (turns : (Draft.running ⟨taken, records⟩).Turns code settings (.resume value) calls (some after)) :
    (∃ sent, Converses flow code.serializer supply held.outline calls sent after.checkpoint.outline ∧
      after.items = (Draft.mk taken records).items ++ sent) ∧
      DurableFlow.Drains held.sessions after.checkpoint.sessions := by
  generalize start : Draft.running ⟨taken, records⟩ = draft at turns
  generalize entry : Attempt.resume value = attempt at turns
  generalize same : some after = left at turns
  induction turns generalizing held taken records value with
  | unentered | stopped => cases same
  | done makes yields applied =>
      subst start entry
      cases same
      obtain ⟨written, replies, answered⟩ := makes.replies known yields applied
      cases eq_of_answerWait_done answered
      obtain ⟨sent, tells⟩ := replies.items conversational untimed
      have converses := Converses.turn rfl within listens ready untimed replies tells .rest
      rw [List.append_nil] at converses
      exact ⟨⟨sent, converses, tells⟩, (Checkpoint.takeReady?_drains ready).trans replies.drains⟩
  | again makes yields applied rest ih =>
      subst start entry
      obtain ⟨written, replies, answered⟩ := makes.replies known yields applied
      obtain ⟨sent, tells⟩ := replies.items conversational untimed
      have drains := (Checkpoint.takeReady?_drains ready).trans replies.drains
      have flowName := (applyOutcome_ok applied).sameFlow.flowName
      have listens' := replies.listens conversational
      obtain ⟨cp, ready', rfl⟩ := takeReady?_of_answerWait listens' answered
      obtain ⟨⟨later, rest, more⟩, drains'⟩ := ih ((congrArg code.registry.get? flowName).trans known)
        listens' (drains.within within) ready' rfl rfl same
      refine ⟨⟨sent ++ later, .turn rfl within listens ready untimed replies tells rest, ?_⟩,
        drains.trans drains'⟩
      rw [more, ← List.append_assoc]
      exact congrArg (· ++ later) tells

end Turns

end Draft

theorem forM_eq_error {ε α : Type} {f : α → Except ε PUnit} {items : List α} {error : ε}
    (h : items.forM f = .error error) : ∃ a ∈ items, f a = .error error := by
  induction items with
  | nil => cases h
  | cons first rest ih =>
      change (f first >>= fun _ => rest.forM f) = .error error at h
      cases step : f first with
      | error reason =>
          rw [step] at h
          cases h
          exact ⟨first, List.mem_cons_self, step⟩
      | ok _ =>
          rw [step] at h
          obtain ⟨a, listed, failed⟩ := ih h
          exact ⟨a, List.mem_cons_of_mem _ listed, failed⟩

namespace Context

theorem receive_ok {ctx : Context} {ids : List SessionId} {request : Request}
    (h : ctx.receive ids = .ok request) : request = .receive ids := by
  unfold receive at h
  split at h
  · cases h
  · obtain ⟨_, _, h⟩ := bind_eq_ok.1 h
    cases h
    rfl

theorem receive_error {ctx : Context} {ids : List SessionId} {error : FlowError}
    (h : ctx.receive ids = .error error) : error.isRetryable = false := by
  unfold receive at h
  split at h
  · cases h
    rfl
  · cases asked : ids.forM fun id => discard (ctx.requireOpen id) with
    | ok _ =>
        simp only [asked] at h
        cases h
    | error reason =>
        simp only [asked] at h
        cases h
        obtain ⟨id, _, refused⟩ := forM_eq_error asked
        cases opened : ctx.requireOpen id with
        | ok view =>
            rw [opened] at refused
            cases refused
        | error reason =>
            rw [opened] at refused
            cases refused
            unfold requireOpen at opened
            split at opened
            · cases opened
              rfl
            · split at opened <;> cases opened
              rfl

end Context

theorem Resumed.intoMessages_error {value : Resumed} {error : FlowError}
    (h : value.intoMessages = .error error) : error.isRetryable = false := by
  cases value <;> cases h <;> rfl

namespace Samples.Echo

theorem run_start (args : Bytes) (ctx : Context) (world : Unit) :
    (echo.start args).run.run (ctx, world) =
      (((ctx.receive ctx.initiator.toList).mapError Halt.error).map (.suspend []), ctx, world) := by
  simp only [echo, run_bind, Logic.run_context, Logic.run_ofFlow]
  cases ctx.receive ctx.initiator.toList <;> rfl

theorem run_resume {state : Bytes} {value : Resumed} {logic : Logic Unit RawStep}
    (decoded : echo.logic? (.resume state value) = .ok logic) (ctx : Context) (world : Unit) :
    logic.run.run (ctx, world) =
      ((value.intoMessages.mapError Halt.error).map fun messages => .finish (messages.entries.flatMap (·.2)),
        ctx, world) := by
  cases decoded
  simp only [run_bind, Logic.run_ofFlow]
  cases value.intoMessages <;> rfl

/-- How a call of an echo ends. -/
def ends (ctx : Context) : Call.Input → Except Halt RawStep
  | .start _ => ((ctx.receive ctx.initiator.toList).mapError Halt.error).map (.suspend [])
  | .resume _ value =>
    (value.intoMessages.mapError Halt.error).map fun messages => .finish (messages.entries.flatMap (·.2))

theorem of_echo {call : Call} {effects : Effects} (of : call.Of echo effects) :
    call.result = ends call.context call.input ∧ effects = call.context.effects := by
  obtain ⟨logic, world, after, left, found, ran, rfl⟩ := of
  cases kind : call.input with
  | start args =>
      rw [kind] at found
      cases found
      obtain ⟨result, rest⟩ := Prod.mk.inj (ran.symm.trans (run_start args call.context world))
      exact ⟨result, congrArg (·.1.effects) rest⟩
  | resume state value =>
      rw [kind] at found
      obtain ⟨result, rest⟩ := Prod.mk.inj (ran.symm.trans (run_resume found call.context world))
      exact ⟨result, congrArg (·.1.effects) rest⟩

theorem conversational : echo.Conversational where
  timeless call again effects effects' of of' input context := by
    obtain ⟨result, rfl⟩ := of_echo of
    obtain ⟨result', rfl⟩ := of_echo of'
    have same : ends again.context.undated call.input = ends call.context.undated call.input := by
      rw [context]
    refine ⟨?_, congrArg (·.effects) context⟩
    rw [result, result', input]
    cases kind : call.input with
    | start args =>
        rw [kind] at same
        exact same
    | resume state value => rfl
  listens call effects state request of suspends := by
    rw [(of_echo of).1] at suspends
    cases kind : call.input with
    | start args =>
        rw [kind, ends] at suspends
        cases received : call.context.receive call.context.initiator.toList with
        | error reason =>
            rw [received] at suspends
            cases suspends
        | ok request =>
            rw [received] at suspends
            cases suspends
            refine ⟨_, ?_, .inl (Context.receive_ok received)⟩
            cases call.context.initiator <;> simp
    | resume state value =>
        rw [kind, ends] at suspends
        cases told : value.intoMessages <;> rw [told] at suspends <;> cases suspends
  steady call effects halt of fails := by
    rw [(of_echo of).1] at fails
    cases kind : call.input with
    | start args =>
        rw [kind, ends] at fails
        cases received : call.context.receive call.context.initiator.toList with
        | error reason =>
            rw [received] at fails
            cases fails
            exact Context.receive_error received
        | ok request =>
            rw [received] at fails
            cases fails
    | resume state value =>
        rw [kind, ends] at fails
        cases told : value.intoMessages with
        | error reason =>
            rw [told] at fails
            cases fails
            exact Resumed.intoMessages_error told
        | ok messages =>
            rw [told] at fails
            cases fails

end Samples.Echo

end DurableFlow
