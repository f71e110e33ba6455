import Mathlib.Data.List.Find
import DurableFlow.Proofs.Calls

/-! # Checkpoints up to the items that are kept

Items that have not been consumed decide when a flow goes on, but not what it does then. The outline of
a checkpoint leaves them out, with how often and when the checkpoint was stored. Flow logic that ends
in the same way on two drafts of one outline leaves two drafts of one outline, and sends the same
items: `Draft.write_agree`. What a wait is answered with is the same for two checkpoints of one outline
that can both answer it, as long as no two items go by one number: `Checkpoint.takeReady?_outline`.
-/

namespace DurableFlow

open Stateful

/-- A session without the items that it keeps. -/
def Session.outline (session : Session) : Session := { session with pending := {} }

namespace Checkpoint

/-- Sessions without the items that they keep. -/
def outlines (sessions : SortedMap SessionId Session) : SortedMap SessionId Session :=
  sessions.mapValues fun _ session => session.outline

/-- A checkpoint without the items that its sessions keep, as if it had never been stored. -/
def outline (cp : Checkpoint) : Checkpoint :=
  { cp with sessions := outlines cp.sessions, version := 0, updatedAt := .epoch }

variable {m n : SortedMap SessionId Session} {id : SessionId}

theorem get?_outlines (sessions : SortedMap SessionId Session) (id : SessionId) :
    (outlines sessions).get? id = (sessions.get? id).map Session.outline :=
  SortedMap.get?_mapValues ..

theorem outlines_insert (sessions : SortedMap SessionId Session) (id : SessionId) (session : Session) :
    outlines (sessions.insert id session) = (outlines sessions).insert id session.outline := by
  refine SortedMap.ext_get? fun other => ?_
  rw [get?_outlines, SortedMap.get?_insert, SortedMap.get?_insert, get?_outlines]
  split <;> rfl

theorem found_of_outlines (same : outlines m = outlines n) {session : Session}
    (found : m.get? id = some session) :
    ∃ other, n.get? id = some other ∧ session.outline = other.outline := by
  have known := congrArg (·.get? id) same
  simp only [get?_outlines, found, Option.map_some] at known
  obtain ⟨other, found, same⟩ := Option.map_eq_some_iff.1 known.symm
  exact ⟨other, found, same.symm⟩

theorem outlines_insert_same {session other : Session} (found : m.get? id = some session)
    (same : other.outline = session.outline) : outlines (m.insert id other) = outlines m := by
  refine SortedMap.ext_get? fun key => ?_
  rw [get?_outlines, get?_outlines, SortedMap.get?_insert]
  split
  next here =>
    rw [Std.LawfulEqCmp.eq_of_compare here, found, Option.map_some, Option.map_some, same]
  next => rfl

theorem openSessions_outline (cp : Checkpoint) : cp.outline.openSessions = cp.openSessions := by
  simp only [openSessions, outline, outlines, SortedMap.keys, SortedMap.filter, SortedMap.mapValues,
    List.filter_map, List.map_map]
  rfl

theorem ofCheckpoint_outline (cp : Checkpoint) (now : Timestamp) :
    Context.ofCheckpoint cp.outline now = Context.ofCheckpoint cp now := by
  have views : cp.outline.sessions.mapValues
      (fun _ session => SessionView.mk session.counterparty session.isOpen) =
      cp.sessions.mapValues fun _ session => ⟨session.counterparty, session.isOpen⟩ := by
    refine SortedMap.ext_get? fun id => ?_
    rw [SortedMap.get?_mapValues, SortedMap.get?_mapValues, outline, get?_outlines, Option.map_map]
    rfl
  rw [Context.ofCheckpoint, views]
  rfl

theorem addSession_outline (cp : Checkpoint) (id : SessionId) (counterparty : Identity) :
    (cp.addSession id counterparty).outline = cp.outline.addSession id counterparty := by
  have known : (outlines cp.sessions).contains id = cp.sessions.contains id := by
    rw [SortedMap.contains, SortedMap.contains, get?_outlines, Option.isSome_map]
  simp only [addSession, outline, known]
  split
  · rfl
  · rw [outlines_insert]
    rfl

end Checkpoint

/-- Whether a record carries an item to a counterparty. -/
def Record.isItem : Record → Bool
  | .sessionData .. => true
  | .sessionClose .. => true
  | _ => false

namespace Draft

/-- The items that a draft sends. -/
def items (draft : Draft) : List Record := draft.records.filter Record.isItem

/-- Two drafts of one outline that have sent the same since they had sent two lists of items. -/
structure Alike (sent sent' : List Record) (a b : Draft) : Prop where
  outline : a.checkpoint.outline = b.checkpoint.outline
  items : ∃ more, a.items = sent ++ more ∧ b.items = sent' ++ more

namespace Alike

variable {sent sent' : List Record} {a b c d : Draft}

theorem of_outline (same : a.checkpoint.outline = b.checkpoint.outline) :
    a.Alike a.items b.items b :=
  ⟨same, [], (List.append_nil _).symm, (List.append_nil _).symm⟩

theorem modify (alike : a.Alike sent sent' b) {f : Checkpoint → Checkpoint}
    (commutes : ∀ cp, (f cp).outline = f cp.outline) :
    Alike sent sent' ⟨f a.checkpoint, a.records⟩ ⟨f b.checkpoint, b.records⟩ := by
  refine ⟨?_, alike.items⟩
  rw [commutes, commutes, alike.outline]

theorem emit (alike : a.Alike sent sent' b) (record : Record) :
    (a.emit record).Alike sent sent' (b.emit record) := by
  obtain ⟨more, first, second⟩ := alike.items
  refine ⟨alike.outline, more ++ [record].filter Record.isItem, ?_, ?_⟩
  · rw [← List.append_assoc, ← first, Draft.items, Draft.items, ← List.filter_append]
    rfl
  · rw [← List.append_assoc, ← second, Draft.items, Draft.items, ← List.filter_append]
    rfl

theorem emit_quiet (alike : a.Alike sent sent' b) {record other : Record}
    (quiet : record.isItem = false) (quiet' : other.isItem = false) :
    (a.emit record).Alike sent sent' (b.emit other) := by
  obtain ⟨more, first, second⟩ := alike.items
  refine ⟨alike.outline, more, ?_, ?_⟩
  · rw [← first]
    simp [Draft.items, Draft.emit, quiet]
  · rw [← second]
    simp [Draft.items, Draft.emit, quiet']

theorem put (alike : a.Alike sent sent' b) {id : SessionId} {s t : Session}
    (found : a.checkpoint.sessions.get? id = some s) (found' : b.checkpoint.sessions.get? id = some t)
    (change : Session → Session) (tell : FlowId → Session → Record)
    (commutes : ∀ s, (change s).outline = change s.outline) (tells : ∀ flow s, tell flow s = tell flow s.outline) :
    Alike sent sent'
      (Draft.emit ⟨a.checkpoint.putSession id (change s), a.records⟩ (tell a.checkpoint.flowId s))
      (Draft.emit ⟨b.checkpoint.putSession id (change t), b.records⟩ (tell b.checkpoint.flowId t)) := by
  have sessions : Checkpoint.outlines a.checkpoint.sessions = Checkpoint.outlines b.checkpoint.sessions :=
    congrArg (·.sessions) alike.outline
  have flowId : a.checkpoint.outline.flowId = b.checkpoint.outline.flowId :=
    congrArg (·.flowId) alike.outline
  have same : s.outline = t.outline := by
    obtain ⟨_, known, same⟩ := Checkpoint.found_of_outlines sessions found
    rw [found'] at known
    cases known
    exact same
  have put (cp : Checkpoint) (s : Session) : (cp.putSession id (change s)).outline =
      cp.outline.putSession id (change s.outline) := by
    simp only [Checkpoint.putSession, Checkpoint.outline, Checkpoint.outlines_insert, commutes]
  have changed : Alike sent sent' ⟨a.checkpoint.putSession id (change s), a.records⟩
      ⟨b.checkpoint.putSession id (change t), b.records⟩ := by
    refine ⟨?_, alike.items⟩
    rw [put, put, alike.outline, same]
  rw [tells, tells _ t, ← same, show a.checkpoint.flowId = b.checkpoint.flowId from flowId]
  exact changed.emit _

end Alike

/-- Two operations leave alike drafts alike. -/
def Agree (f g : Draft → Except OutcomeError Draft) : Prop :=
  ∀ ⦃sent sent' a b c d⦄, Alike sent sent' a b → f a = .ok c → g b = .ok d → Alike sent sent' c d

theorem Agree.foldlM {α : Type} {f g : Draft → α → Except OutcomeError Draft}
    (agree : ∀ x, Agree (f · x) (g · x)) (items : List α) :
    Agree (items.foldlM f) (items.foldlM g) := by
  intro sent sent' a b c d alike first second
  induction items generalizing a b with
  | nil =>
      cases first
      cases second
      exact alike
  | cons x rest ih =>
      simp only [List.foldlM_cons, bind_eq_ok] at first second
      obtain ⟨a', step, first⟩ := first
      obtain ⟨b', step', second⟩ := second
      exact ih (agree x alike step step') first second

theorem closeSession_agree (id : SessionId) : Agree (·.closeSession id) (·.closeSession id) := by
  intro sent sent' a b c d alike first second
  simp only [closeSession, bind_eq_ok, pure_eq_ok, session_ok] at first second
  obtain ⟨s, found, rfl⟩ := first
  obtain ⟨t, found', rfl⟩ := second
  exact alike.put found found' closed
    (fun flow s => .sessionClose flow id s.counterparty s.nextSend) (fun _ => rfl) fun _ _ => rfl

theorem errorSession_agree (reason : String) (id : SessionId) :
    Agree (errorSession reason · id) (errorSession reason · id) := by
  intro sent sent' a b c d alike first second
  simp only [errorSession, bind_eq_ok, pure_eq_ok, session_ok] at first second
  obtain ⟨s, found, rfl⟩ := first
  obtain ⟨t, found', rfl⟩ := second
  exact alike.put found found' errored
    (fun flow s => .sessionError flow id s.counterparty reason) (fun _ => rfl) fun _ _ => rfl

theorem sendMessage_agree (message : OutboundMessage) :
    Agree (·.sendMessage message) (·.sendMessage message) := by
  intro sent sent' a b c d alike first second
  simp only [sendMessage, bind_eq_ok, pure_eq_ok, session_ok] at first second
  obtain ⟨s, found, rfl⟩ := first
  obtain ⟨t, found', rfl⟩ := second
  exact alike.put found found' Draft.sent
    (fun flow s => .sessionData flow message.sessionId s.counterparty s.nextSend message.payload)
    (fun _ => rfl) fun _ _ => rfl

theorem setStatus_agree (status : Status) : Agree (·.setStatus status) (·.setStatus status) := by
  intro sent sent' a b c d alike first second
  obtain ⟨_, rfl⟩ := setStatus_ok.1 first
  obtain ⟨_, rfl⟩ := setStatus_ok.1 second
  exact alike.modify (f := fun cp => { cp with status }) fun _ => rfl

theorem applyEffects_agree (effects : Effects) : Agree (·.applyEffects effects) (·.applyEffects effects) := by
  intro sent sent' a b c d alike first second
  refine Agree.foldlM closeSession_agree effects.closed ?_ first second
  refine alike.modify (f := fun cp =>
    effects.initiated.foldl (fun cp opened => cp.addSession opened.1 opened.2) cp) fun cp => ?_
  induction effects.initiated generalizing cp with
  | nil => rfl
  | cons head rest ih => rw [List.foldl_cons, ih, Checkpoint.addSession_outline, List.foldl_cons]

theorem announceEnd_agree (status : Status) (detail : Option String) (config config' : Config)
    (now now' : Timestamp) :
    Agree (·.announceEnd status detail config now) (·.announceEnd status detail config' now') := by
  intro sent sent' a b c d alike first second
  simp only [announceEnd, bind_eq_ok, pure_eq_ok] at first second
  obtain ⟨_, _, rfl⟩ := first
  obtain ⟨_, _, rfl⟩ := second
  exact (alike.emit_quiet rfl rfl).emit_quiet rfl rfl

theorem complete_agree (output : Bytes) (effects : Effects) (config config' : Config)
    (now now' : Timestamp) :
    Agree (·.complete output effects config now) (·.complete output effects config' now') := by
  intro sent sent' a b c d alike first second
  simp only [complete, bind_eq_ok] at first second
  obtain ⟨a₁, effected, a₂, shut, a₃, moved, first⟩ := first
  obtain ⟨b₁, effected', b₂, shut', b₃, moved', second⟩ := second
  have alike := applyEffects_agree effects alike effected effected'
  have sessions : a₁.checkpoint.openSessions = b₁.checkpoint.openSessions := by
    rw [← Checkpoint.openSessions_outline, alike.outline, Checkpoint.openSessions_outline]
  rw [← sessions] at shut'
  have alike := Agree.foldlM closeSession_agree _ alike shut shut'
  have alike := setStatus_agree .completed alike moved moved'
  exact announceEnd_agree _ _ _ _ _ _ (alike.modify (f := fun cp => { cp with
    result := some output
    waitingFor := .nothing
    pendingResume := none }) fun _ => rfl) first second

theorem fail_agree (reason : String) (config config' : Config) (now now' : Timestamp) :
    Agree (·.fail reason config now) (·.fail reason config' now') := by
  intro sent sent' a b c d alike first second
  simp only [fail, bind_eq_ok] at first second
  obtain ⟨a₁, moved, a₂, shut, first⟩ := first
  obtain ⟨b₁, moved', b₂, shut', second⟩ := second
  have alike := setStatus_agree .failed alike moved moved'
  have sessions : a₁.checkpoint.openSessions = b₁.checkpoint.openSessions := by
    rw [← Checkpoint.openSessions_outline, alike.outline, Checkpoint.openSessions_outline]
  rw [← sessions] at shut'
  have alike := Agree.foldlM (errorSession_agree reason) _ alike shut shut'
  exact announceEnd_agree _ _ _ _ _ _ (alike.modify (f := fun cp => { cp with
    waitingFor := .nothing
    pendingResume := none
    lastFailureReason := some reason }) fun _ => rfl) first second

/-- Write the outcome of a run into the checkpoint, without a look at the wait that may begin. -/
def write (draft : Draft) (outcome : FiberOutcome) (effects : Effects) (attempt : Attempt)
    (config : Config) (now : Timestamp) : Except OutcomeError Draft := do
  match outcome with
  | .suspended request continuation =>
    let draft ← draft.applyEffects effects
    let cp := { draft.checkpoint with
      continuation := some continuation
      retryCount := 0
      lastFailureReason := none
      pendingResume := none }
    { draft with checkpoint := cp }.park request config now
  | .completed output => draft.complete output effects config now
  | .failed error =>
    if error.isRetryable ∧ draft.checkpoint.retryCount < config.retry.maxRetries then
      draft.retry error attempt config now
    else draft.fail error.message config now

theorem answerWait_of_over {draft : Draft} (nothing : draft.checkpoint.waitingFor = .nothing) :
    draft.answerWait = (draft, .done) := by
  simp [answerWait, Checkpoint.takeReady, nothing]

theorem answerWait_of_wakeup {draft : Draft} {due : Timestamp}
    (asleep : draft.checkpoint.waitingFor = .wakeup due) : draft.answerWait = (draft, .done) := by
  simp [answerWait, Checkpoint.takeReady, asleep]

theorem write_of_applyOutcome {draft : Draft} {outcome : FiberOutcome} {effects : Effects}
    {attempt : Attempt} {config : Config} {now : Timestamp} {result : Draft × Next}
    (applied : draft.applyOutcome outcome effects attempt config now = .ok result) :
    ∃ written, draft.write outcome effects attempt config now = .ok written ∧
      written.answerWait = result := by
  cases outcome with
  | suspended request continuation =>
      simp only [applyOutcome, bind_eq_ok, suspend_eq_ok] at applied
      obtain ⟨worked, effected, written, parks, same⟩ := applied
      refine ⟨written, ?_, same⟩
      simp only [write, bind_eq_ok]
      exact ⟨worked, effected, parks⟩
  | completed output =>
      simp only [applyOutcome, bind_eq_ok, pure_eq_ok] at applied
      obtain ⟨after, completed, rfl⟩ := applied
      obtain ⟨_, _, _, rest⟩ := complete_ok completed
      exact ⟨after, completed, answerWait_of_over (by rw [rest])⟩
  | failed error =>
      simp only [applyOutcome] at applied
      split at applied
      next again =>
        simp only [bind_eq_ok, pure_eq_ok] at applied
        obtain ⟨after, retried, rfl⟩ := applied
        obtain ⟨_, rest⟩ := retry_ok retried
        exact ⟨after, by rw [write, if_pos again, retried], answerWait_of_wakeup (by rw [rest])⟩
      next given =>
        simp only [bind_eq_ok, pure_eq_ok] at applied
        obtain ⟨after, failed, rfl⟩ := applied
        obtain ⟨_, _, _, rest⟩ := fail_ok failed
        exact ⟨after, by rw [write, if_neg given, failed], answerWait_of_over (by rw [rest])⟩

end Draft

/-- A request waits for sessions, none of which it names twice. -/
def Request.Listens (request : Request) : Prop :=
  ∃ ids : List SessionId, ids.Nodup ∧
    (request = .receive ids ∨ ∃ messages, request = .sendAndReceive messages ids)

/-- An outcome after which a flow waits for sessions, or is over. -/
def FiberOutcome.Listens : FiberOutcome → Prop
  | .suspended request _ => request.Listens
  | .completed _ => True
  | .failed error => error.isRetryable = false

theorem Config.deadline_of_untimed {config : Config} (untimed : config.suspensionTimeout = none)
    (now : Timestamp) : config.deadline now = .ok none := by
  rw [deadline, suspensionTimeout?, untimed]
  rfl

namespace Draft

theorem park_agree {request : Request} (listens : request.Listens) {config config' : Config}
    (untimed : config.suspensionTimeout = none) (untimed' : config'.suspensionTimeout = none)
    (now now' : Timestamp) : Agree (·.park request config now) (·.park request config' now') := by
  intro sent sent' a b c d alike first second
  simp only [park, Config.deadline_of_untimed, untimed, untimed', mapError_ok, bind_eq_ok,
    Except.ok.injEq, exists_eq_left'] at first second
  obtain ⟨⟨a₁, wait⟩, began, moved⟩ := first
  obtain ⟨⟨b₁, wait'⟩, began', moved'⟩ := second
  have begun : ∃ ids, wait = .sessions ids none ∧ wait' = .sessions ids none ∧
      a₁.Alike sent sent' b₁ := by
    obtain ⟨ids, _, rfl | ⟨messages, rfl⟩⟩ := listens
    · cases began
      cases began'
      exact ⟨ids, rfl, rfl, alike⟩
    · simp only [beginWait, bind_eq_ok, pure_eq_ok, Prod.mk.injEq] at began began'
      obtain ⟨_, sent, rfl, rfl⟩ := began
      obtain ⟨_, sent', rfl, rfl⟩ := began'
      exact ⟨ids, rfl, rfl, Agree.foldlM sendMessage_agree messages alike sent sent'⟩
  obtain ⟨ids, rfl, rfl, alike⟩ := begun
  exact setStatus_agree .suspended (alike.modify (f := fun cp => { cp with
    waitingFor := .sessions ids none }) fun _ => rfl) moved moved'

/-- Flow logic that ends in the same way on alike drafts leaves alike drafts. -/
theorem write_agree {outcome : FiberOutcome} (listens : outcome.Listens) (effects : Effects)
    (attempt attempt' : Attempt) {config config' : Config}
    (untimed : config.suspensionTimeout = none) (untimed' : config'.suspensionTimeout = none)
    (now now' : Timestamp) : Agree (·.write outcome effects attempt config now)
      (·.write outcome effects attempt' config' now') := by
  intro sent sent' a b c d alike first second
  cases outcome with
  | suspended request continuation =>
      simp only [write, bind_eq_ok] at first second
      obtain ⟨a₁, effected, first⟩ := first
      obtain ⟨b₁, effected', second⟩ := second
      have alike := applyEffects_agree effects alike effected effected'
      exact park_agree listens untimed untimed' now now' (alike.modify (f := fun cp => { cp with
        continuation := some continuation
        retryCount := 0
        lastFailureReason := none
        pendingResume := none }) fun _ => rfl) first second
  | completed output => exact complete_agree output effects _ _ _ _ alike first second
  | failed error =>
      have final : error.isRetryable = false := listens
      simp only [write, final, Bool.false_eq_true, false_and, if_false] at first second
      exact fail_agree error.message _ _ _ _ alike first second

end Draft

namespace Checkpoint

open Intake

variable {m n : SortedMap SessionId Session}

/-- The next items of two sessions are the same one. -/
def SameHead (m n : SortedMap SessionId Session) (id : SessionId) : Prop :=
  (find m id).head? = (find n id).head?

theorem consume_outlines {id : SessionId} (same : outlines m = outlines n) (heads : SameHead m n id) :
    (consume m id).1 = (consume n id).1 ∧
      outlines (consume m id).2 = outlines (consume n id).2 := by
  cases head : (find m id).head? with
  | none =>
      rw [consume_of_stalled head, consume_of_stalled (heads.symm.trans head)]
      exact ⟨rfl, same⟩
  | some item =>
      obtain ⟨s, found, _, consumed⟩ := consume_of_head? head
      obtain ⟨t, found', _, consumed'⟩ := consume_of_head? (heads.symm.trans head)
      obtain ⟨_, known, outline⟩ := found_of_outlines same found
      rw [found'] at known
      cases known
      have taken : (s.taken item).outline = (t.taken item).outline :=
        congrArg (fun s => (s.taken item).outline) outline
      rw [consumed, consumed']
      refine ⟨rfl, ?_⟩
      rw [outlines_insert, outlines_insert, same, taken]

theorem collect_outlines {ids : List SessionId} (once : ids.Nodup) (same : outlines m = outlines n)
    (heads : ∀ id ∈ ids, SameHead m n id) (messages : Messages) :
    (collect m messages ids).1 = (collect n messages ids).1 ∧
      outlines (collect m messages ids).2 = outlines (collect n messages ids).2 := by
  induction ids generalizing m n messages with
  | nil => exact ⟨rfl, same⟩
  | cons first rest ih =>
      obtain ⟨other, once⟩ := List.nodup_cons.1 once
      obtain ⟨payload, consumed⟩ := consume_outlines same (heads first List.mem_cons_self)
      have gathered : gather m messages first = gather n messages first := by
        rw [gather, gather, payload]
      rw [collect_cons, collect_cons, gathered]
      refine ih once consumed (fun id listed => ?_) _
      have differs : id ≠ first := fun here => other (here ▸ listed)
      rw [SameHead, find_consume_of_ne m differs, find_consume_of_ne n differs]
      exact heads id (List.mem_cons_of_mem _ listed)

/-- A wait that is over for some sessions is over in the same way for others of the same outline, or
goes on because of a session that has not delivered what its like has. -/
theorem readiness_cases (same : outlines m = outlines n) {ids : List SessionId}
    (finished : readiness m ids ≠ .waiting) :
    readiness n ids = readiness m ids ∨ readiness n ids = .waiting ∧ ∃ id s t item,
      m.get? id = some s ∧ s.next? = some item ∧ n.get? id = some t ∧ t.isOpen ∧ t.next? = none := by
  induction ids with
  | nil => exact .inl rfl
  | cons first rest ih =>
      simp only [readiness] at finished ⊢
      cases found : m.get? first with
      | none =>
          rw [found] at finished
          exact absurd rfl finished
      | some s =>
          obtain ⟨t, found', outline⟩ := found_of_outlines same found
          have isOpen : t.isOpen = s.isOpen := congrArg (·.isOpen) outline.symm
          simp only [found, found', isOpen] at finished ⊢
          cases opened : s.isOpen with
          | false => exact .inl (by simp)
          | true =>
              simp only [opened, Bool.not_true, Bool.false_eq_true, if_false] at finished ⊢
              cases next : s.next? with
              | none =>
                  rw [next] at finished
                  exact absurd rfl finished
              | some item =>
                  simp only [next, Option.isNone_some, Bool.false_eq_true, if_false] at finished ⊢
                  cases next' : t.next? with
                  | none =>
                      exact .inr ⟨by simp, first, s, t, item, found, next, found',
                        isOpen.trans opened, next'⟩
                  | some item' =>
                      simp only [Option.isNone_some, Bool.false_eq_true, if_false]
                      exact ih finished

/-- What a wait for session items is answered with, and the sessions after that. -/
def answer? (sessions : SortedMap SessionId Session) (awaited : List SessionId) :
    Option (Resumed × SortedMap SessionId Session) :=
  match readiness sessions awaited with
  | .waiting => none
  | .ended id => some (.sessionFailed id .closedByPeer, sessions)
  | .ready =>
    match awaited.find? (isClosing sessions) with
    | some id => some (.sessionFailed id .closedByPeer, (consume sessions id).2)
    | none => some (.messages (collect sessions {} awaited).1, (collect sessions {} awaited).2)

theorem takeReady?_of_wait {cp : Checkpoint} {awaited : List SessionId} {deadline : Option Timestamp}
    (wait : cp.waitingFor = .sessions awaited deadline) :
    cp.takeReady? = (answer? cp.sessions awaited).map fun (value, sessions) =>
      (value, { cp with sessions }) := by
  cases cp
  cases wait
  simp only [takeReady?, takeReady, answer?]
  cases readiness _ awaited with
  | waiting => rfl
  | ended id => rfl
  | ready => cases awaited.find? _ <;> rfl

theorem answer?_outlines {awaited : List SessionId} (once : awaited.Nodup)
    (same : outlines m = outlines n)
    (agree : ∀ id item item', (find m id).head? = some item → (find n id).head? = some item' →
      item = item') {value value' : Resumed} {m' n' : SortedMap SessionId Session}
    (answer : answer? m awaited = some (value, m')) (answer' : answer? n awaited = some (value', n')) :
    value = value' ∧ outlines m' = outlines n' := by
  have ready : readiness n awaited = readiness m awaited := by
    refine (readiness_cases same fun waiting => ?_).resolve_right fun waiting => ?_
    · rw [answer?, waiting] at answer
      cases answer
    · rw [answer?, waiting.1] at answer'
      cases answer'
  unfold answer? at answer answer'
  rw [ready] at answer'
  split at answer
  · cases answer
  next id ended =>
    rw [ended] at answer'
    cases answer
    cases answer'
    exact ⟨rfl, same⟩
  next delivers =>
    have heads : ∀ id ∈ awaited, SameHead m n id := by
      intro id listed
      obtain ⟨_, item, _, _, head⟩ := canDeliver_of_ready delivers id listed
      obtain ⟨_, item', _, _, head'⟩ := canDeliver_of_ready (ready.trans delivers) id listed
      rw [SameHead, head, head', agree id item item' head head']
    have closing : awaited.find? (isClosing n) = awaited.find? (isClosing m) := by
      refine List.find?_congr fun id listed => ?_
      rw [isClosing, isClosing, next?_eq_head?, next?_eq_head?, heads id listed]
    rw [delivers] at answer'
    simp only [closing] at answer'
    split at answer
    next id found =>
      rw [found] at answer'
      cases answer
      cases answer'
      exact ⟨rfl, (consume_outlines same (heads id (List.mem_of_find?_eq_some found))).2⟩
    next none =>
      rw [none] at answer'
      cases answer
      cases answer'
      obtain ⟨messages, sessions⟩ := collect_outlines once same heads {}
      exact ⟨congrArg _ messages, sessions⟩

/-- What ends the waits of two checkpoints of one outline is the same, as long as no session has
different items next in them. -/
theorem takeReady?_outline {cp other after after' : Checkpoint} {value value' : Resumed}
    (same : cp.outline = other.outline)
    (once : ∀ awaited deadline, cp.waitingFor = .sessions awaited deadline → awaited.Nodup)
    (agree : ∀ id item item', (find cp.sessions id).head? = some item →
      (find other.sessions id).head? = some item' → item = item')
    (taken : cp.takeReady? = some (value, after)) (taken' : other.takeReady? = some (value', after')) :
    value = value' ∧ after.outline = after'.outline := by
  have waits : cp.outline.waitingFor = other.outline.waitingFor := congrArg (·.waitingFor) same
  have sessions : outlines cp.sessions = outlines other.sessions := congrArg (·.sessions) same
  obtain ⟨awaited, deadline, _, wait, _⟩ := takeReady?_some taken
  have wait' : other.waitingFor = .sessions awaited deadline := waits.symm.trans wait
  rw [takeReady?_of_wait wait, Option.map_eq_some_iff] at taken
  rw [takeReady?_of_wait wait', Option.map_eq_some_iff] at taken'
  obtain ⟨⟨_, m⟩, answer, given⟩ := taken
  obtain ⟨⟨_, n⟩, answer', given'⟩ := taken'
  cases given
  cases given'
  obtain ⟨value, outline⟩ := answer?_outlines (once awaited deadline wait) sessions agree answer answer'
  refine ⟨value, ?_⟩
  change { cp.outline with sessions := outlines m } = { other.outline with sessions := outlines n }
  rw [same, outline]

end Checkpoint

end DurableFlow
