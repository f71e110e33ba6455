import DurableFlow.Handler
import DurableFlow.Proofs.Drafts

/-! # What an event does to a checkpoint

`Prepares` lists everything an event can do before any flow logic runs. Every fact about the
handling of events is read off this list.
-/

namespace DurableFlow

/-- A stored checkpoint belongs to the flow it is stored for. -/
def Checkpoint.IsOf (loaded : Option Checkpoint) (id : FlowId) : Prop :=
  ∀ cp, loaded = some cp → cp.flowId = id

namespace Handler

open Stateful

/-- A checkpoint with one more item kept on a session. -/
def keep (cp : Checkpoint) (id : SessionId) (session : Session) (number : Nat) (item : Item) :
    Checkpoint :=
  cp.putSession id (session.buffer number item)

/-- All that an event can do to the checkpoint it is handled with. -/
inductive Prepares (flowId : FlowId) (config : Config) (now : Timestamp) :
    EventPayload → Option Checkpoint → Prepared → Prop where
  | started {request : StartRequest} {cp : Checkpoint}
      (served : SessionsServed {} cp.sessions)
      (rest : cp = { Checkpoint.new flowId request.owner request.flowName now with
        startArgs := some request.args
        sessions := cp.sessions
        initiatedBy := cp.initiatedBy }) :
      Prepares flowId config now (.startFlow request) none ⟨⟨cp, []⟩, .start request.args⟩
  | kept {id : SessionId} {number : Nat} {item : Item} {cp : Checkpoint} {session : Session}
      (found : cp.sessions.get? id = some session) (isOpen : session.isOpen)
      (unseen : session.hasSeen number = false)
      (waits : (keep cp id session number item).takeReady? = none) :
      Prepares flowId config now (.session id number item) (some cp)
        ⟨⟨keep cp id session number item, [.sessionAck flowId id number]⟩, .skip⟩
  | answered {id : SessionId} {number : Nat} {item : Item} {cp after : Checkpoint}
      {session : Session} {value : Resumed}
      (found : cp.sessions.get? id = some session) (isOpen : session.isOpen)
      (unseen : session.hasSeen number = false)
      (taken : (keep cp id session number item).takeReady? = some (value, after)) :
      Prepares flowId config now (.session id number item) (some cp)
        ⟨⟨after, [.sessionAck flowId id number]⟩, .resume value⟩
  | early {cp : Checkpoint} {due : Timestamp} (alarm : cp.waitingFor.alarm? = some due)
      (early : now < due) :
      Prepares flowId config now .wakeup (some cp) ⟨⟨cp, [.scheduleWakeup cp.flowId due]⟩, .skip⟩
  | awake {cp : Checkpoint} {due : Timestamp} (wait : cp.waitingFor = .wakeup due)
      (late : ¬ now < due) (first : cp.status ≠ .retrying) :
      Prepares flowId config now .wakeup (some cp) ⟨⟨cp, []⟩, .resume .wakeup⟩
  | again {cp : Checkpoint} {due : Timestamp} {value : Resumed} (wait : cp.waitingFor = .wakeup due)
      (late : ¬ now < due) (retrying : cp.status = .retrying)
      (pending : cp.pendingResume = some value) :
      Prepares flowId config now .wakeup (some cp)
        ⟨⟨{ cp with pendingResume := none }, []⟩, .resume value⟩
  | restarted {cp : Checkpoint} {due : Timestamp} (wait : cp.waitingFor = .wakeup due)
      (late : ¬ now < due) (retrying : cp.status = .retrying) (pending : cp.pendingResume = none)
      (unsuspended : cp.continuation = none) :
      Prepares flowId config now .wakeup (some cp) ⟨⟨cp, []⟩, .start (cp.startArgs.getD [])⟩
  | timedOut {cp : Checkpoint} {awaited : List SessionId} {deadline : Timestamp} {id : SessionId}
      (wait : cp.waitingFor = .sessions awaited (some deadline)) (late : ¬ now < deadline)
      (listed : id ∈ awaited) :
      Prepares flowId config now .wakeup (some cp)
        ⟨⟨cp, []⟩, .resume (.sessionFailed id .timedOut)⟩
  | counted {cp : Checkpoint} {count required received total : Nat}
      (wait : cp.waitingFor = .confirmations required received)
      (sum : total = min (received + count) maxConfirmations) (few : ¬ required ≤ total) :
      Prepares flowId config now (.confirmation count) (some cp)
        ⟨⟨{ cp with waitingFor := .confirmations required total }, []⟩, .skip⟩
  | confirmed {cp : Checkpoint} {count required received total : Nat}
      (wait : cp.waitingFor = .confirmations required received)
      (sum : total = min (received + count) maxConfirmations) (enough : required ≤ total) :
      Prepares flowId config now (.confirmation count) (some cp)
        ⟨⟨{ cp with waitingFor := .confirmations required total }, []⟩, .resume (.confirmed total)⟩
  | failed {reason : String} {cp : Checkpoint} {draft : Draft}
      (failed : Draft.fail ⟨cp, []⟩ reason config now = .ok draft) :
      Prepares flowId config now (.failure reason) (some cp) ⟨draft, .skip⟩

/-- The flow as it waits when an event has arrived: an item is kept, but nothing is taken yet. -/
def waiting (payload : EventPayload) (loaded : Option Checkpoint) (prepared : Prepared) :
    Checkpoint :=
  match payload, loaded with
  | .session id number item, some cp =>
    match cp.sessions.get? id with
    | some session => keep cp id session number item
    | none => prepared.draft.checkpoint
  | _, _ => prepared.draft.checkpoint

variable {flowId : FlowId} {config : Config} {now : Timestamp}

theorem start_prepares {request : StartRequest} {prepared : Prepared}
    (h : start flowId request now none = .ok prepared) :
    Prepares flowId config now (.startFlow request) none prepared := by
  simp only [start, Option.isSome_none, Bool.false_eq_true, if_false] at h
  split at h
  · cases h
  · cases h
    cases request.initiatedBy with
    | none => exact .started (.refl _) rfl
    | some initiator =>
        have work := Draft.addSession_work
          ⟨{ Checkpoint.new flowId request.owner request.flowName now with
            startArgs := some request.args }, []⟩ initiator.sessionId initiator.counterparty
        refine .started work.sessions ?_
        have rest := work.rest
        simp only at rest ⊢
        rw [rest]

theorem session_prepares {id : SessionId} {number : Nat} {item : Item} {cp : Checkpoint}
    {prepared : Prepared} (h : session flowId id number item cp = .ok prepared) :
    Prepares flowId config now (.session id number item) (some cp) prepared := by
  unfold session at h
  split at h
  · cases h
  next s found =>
    split at h
    · cases h
    next isOpen =>
      split at h
      · cases h
      next unseen =>
        simp only [Bool.not_eq_true', Bool.not_eq_false] at isOpen
        simp only [Bool.not_eq_true] at unseen
        rcases ended : (cp.putSession id (s.buffer number item)).takeReady with ⟨_ | value, after⟩
        · rw [ended] at h
          cases h
          cases Checkpoint.takeReady_unready ended
          exact .kept found isOpen unseen (Checkpoint.takeReady?_eq_none_iff.2 ended)
        · rw [ended] at h
          cases h
          exact .answered found isOpen unseen (Checkpoint.takeReady?_eq_some_iff.2 ended)

theorem retry_prepares {cp : Checkpoint} {due : Timestamp} {prepared : Prepared}
    (wait : cp.waitingFor = .wakeup due) (late : ¬ now < due) (retrying : cp.status = .retrying)
    (h : retry cp = .ok prepared) : Prepares flowId config now .wakeup (some cp) prepared := by
  unfold retry at h
  split at h
  next value pending =>
    cases h
    exact .again wait late retrying pending
  next pending =>
    split at h
    next unsuspended =>
      cases h
      exact .restarted wait late retrying pending (Option.isNone_iff_eq_none.1 unsuspended)
    · cases h

theorem wakeup_prepares {cp : Checkpoint} {prepared : Prepared}
    (h : wakeup now cp = .ok prepared) : Prepares flowId config now .wakeup (some cp) prepared := by
  unfold wakeup at h
  split at h
  next due wait =>
    split at h
    next early =>
      cases h
      exact .early (by rw [wait]; rfl) early
    next late =>
      split at h
      next retrying => exact retry_prepares wait late retrying h
      next first =>
        cases h
        exact .awake wait late first
  next awaited deadline wait =>
    split at h
    next early =>
      cases h
      exact .early (by rw [wait]; rfl) early
    next late =>
      split at h
      next id chosen =>
        cases h
        refine .timedOut wait late ?_
        rcases Option.or_eq_some_iff.1 chosen with found | ⟨_, first⟩
        · exact List.mem_of_find?_eq_some found
        · exact List.mem_of_head? first
      · cases h
  · cases h

theorem confirmation_prepares {count : Nat} {cp : Checkpoint} {prepared : Prepared}
    (h : confirmation count cp = .ok prepared) :
    Prepares flowId config now (.confirmation count) (some cp) prepared := by
  unfold confirmation at h
  split at h
  next required received wait =>
    cases h
    by_cases enough : required ≤ min (received + count) maxConfirmations
    · simp only [enough, if_true]
      exact .confirmed wait rfl enough
    · simp only [enough, if_false]
      exact .counted wait rfl enough
  · cases h

theorem failure_prepares {reason : String} {cp : Checkpoint} {prepared : Prepared}
    (h : failure reason config now cp = .ok prepared) :
    Prepares flowId config now (.failure reason) (some cp) prepared := by
  unfold failure at h
  split at h
  next failed =>
    cases h
    exact .failed failed
  · cases h
  · cases h

theorem prepare_prepares {payload : EventPayload} {loaded : Option Checkpoint}
    {prepared : Prepared} (h : prepare flowId payload config now loaded = .ok prepared) :
    Prepares flowId config now payload loaded prepared := by
  simp only [prepare] at h
  split at h
  next accepted =>
    unfold preprocess at h
    split at h
    next request =>
      cases loaded with
      | none => exact start_prepares (mapError_eq_ok.1 h)
      | some cp => cases accepted
    · cases h
    · cases h
    · exact session_prepares (mapError_eq_ok.1 h)
    · exact wakeup_prepares (mapError_eq_ok.1 h)
    · exact confirmation_prepares (mapError_eq_ok.1 h)
    · exact failure_prepares h
  · cases h

namespace Prepares

variable {payload : EventPayload} {prepared : Prepared}

/-- An event changes neither what identifies a flow nor its continuation. -/
theorem keeps {cp : Checkpoint} (prepares : Prepares flowId config now payload (some cp) prepared) :
    cp.SameFlow prepared.draft.checkpoint ∧
      prepared.draft.checkpoint.continuation = cp.continuation := by
  cases prepares with
  | answered found isOpen unseen taken =>
      obtain ⟨_, _, sessions, _, _, rfl⟩ := Checkpoint.takeReady?_some taken
      exact ⟨⟨rfl, rfl, rfl, rfl, rfl, rfl⟩, rfl⟩
  | failed failed =>
      obtain ⟨_, _, _, rest⟩ := Draft.fail_ok failed
      simp only [rest]
      exact ⟨⟨rfl, rfl, rfl, rfl, rfl, rfl⟩, trivial⟩
  | _ => exact ⟨⟨rfl, rfl, rfl, rfl, rfl, rfl⟩, rfl⟩

theorem starts (prepares : Prepares flowId config now payload none prepared) :
    ∃ request, payload = .startFlow request ∧ prepared.decision = .start request.args := by
  cases prepares with
  | started served rest => exact ⟨_, rfl, rfl⟩

theorem flowId_eq {loaded : Option Checkpoint}
    (prepares : Prepares flowId config now payload loaded prepared)
    (isOf : Checkpoint.IsOf loaded flowId) : prepared.draft.checkpoint.flowId = flowId := by
  cases loaded with
  | none =>
      cases prepares with
      | started served rest => exact congrArg Checkpoint.flowId rest
  | some cp => exact prepares.keeps.1.flowId.trans (isOf cp rfl)

end Prepares

end Handler

end DurableFlow
