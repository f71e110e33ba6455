import Mathlib.Algebra.GroupWithZero.Nat
import Mathlib.Algebra.Order.BigOperators.Group.Finset
import DurableFlow.Proofs.Faultless

/-! # A backlog shrinks

Flow logic that is resumed in place has been answered with what was there already. If every one of its
requests asks for something, `Flow.Demanding`, that was an item which had arrived earlier. So the items
that wait to be consumed become fewer each time, `Draft.applyOutcome_backlog`; nothing else that an
outcome does touches them.
-/

namespace DurableFlow

open Stateful

variable {σ : Type}

namespace Intake

theorem size_tail {intake : Intake} {item : Item} (arrived : intake.head? = some item) :
    intake.tail.pending.size + 1 = intake.pending.size := by
  have listed := SortedMap.perm_insert intake.pending intake.next item
  rw [SortedMap.insert_of_get? arrived] at listed
  exact listed.length_eq.symm

theorem Takes.size_eq {a b : Intake} {items : List (Nat × Item)} (takes : a.Takes items b) :
    b.pending.size + items.length = a.pending.size := by
  induction takes with
  | none => rfl
  | item arrived _ ih =>
      rw [List.length_cons, ← Nat.add_assoc, ih]
      exact size_tail arrived

end Intake

namespace Checkpoint

open Intake

/-- How many inbound items wait to be consumed. -/
def backlog (sessions : SortedMap SessionId Session) : Nat :=
  (sessions.entries.map fun entry => entry.2.pending.size).sum

theorem backlog_eq_sum {sessions : SortedMap SessionId Session} {ids : Finset SessionId}
    (covers : ∀ id, sessions.contains id → id ∈ ids) :
    backlog sessions = ∑ id ∈ ids, (find sessions id).pending.size := by
  have listed : sessions.entries.map (fun entry => entry.2.pending.size) =
      sessions.keys.map fun id => (find sessions id).pending.size := by
    rw [SortedMap.keys, List.map_map]
    refine List.map_congr_left fun entry member => ?_
    simp [find, SortedMap.mem_entries.1 member, Session.intake]
  rw [backlog, listed, ← List.sum_toFinset _ (SortedMap.nodup_keys sessions)]
  refine Finset.sum_subset (fun id member => ?_) fun id _ unknown => ?_
  · exact covers id (SortedMap.mem_keys.1 (List.mem_toFinset.1 member))
  · rw [List.mem_toFinset, SortedMap.mem_keys, SortedMap.contains, Bool.not_eq_true,
      Option.isSome_eq_false_iff, Option.isNone_iff_eq_none] at unknown
    simp [find, unknown, initial, SortedMap.size, EmptyCollection.emptyCollection, SortedMap.empty]

section Compare

variable {before after : SortedMap SessionId Session}

theorem backlog_eq_sums (before after : SortedMap SessionId Session) : ∃ ids : Finset SessionId,
    (∀ id, before.contains id → id ∈ ids) ∧
      backlog before = ∑ id ∈ ids, (find before id).pending.size ∧
      backlog after = ∑ id ∈ ids, (find after id).pending.size := by
  have known : ∀ id, before.contains id → id ∈ (before.keys ++ after.keys).toFinset :=
    fun id known => by simp [SortedMap.mem_keys.2 known]
  have known' : ∀ id, after.contains id → id ∈ (before.keys ++ after.keys).toFinset :=
    fun id known => by simp [SortedMap.mem_keys.2 known]
  exact ⟨_, known, backlog_eq_sum known, backlog_eq_sum known'⟩

theorem backlog_congr
    (same : ∀ id, (find after id).pending.size = (find before id).pending.size) :
    backlog after = backlog before := by
  obtain ⟨ids, _, earlier, later⟩ := backlog_eq_sums before after
  rw [earlier, later]
  exact Finset.sum_congr rfl fun id _ => same id

theorem backlog_le (fewer : ∀ id, (find after id).pending.size ≤ (find before id).pending.size) :
    backlog after ≤ backlog before := by
  obtain ⟨ids, _, earlier, later⟩ := backlog_eq_sums before after
  rw [earlier, later]
  exact Finset.sum_le_sum fun id _ => fewer id

theorem backlog_lt (fewer : ∀ id, (find after id).pending.size ≤ (find before id).pending.size)
    (id : SessionId) (less : (find after id).pending.size < (find before id).pending.size) :
    backlog after < backlog before := by
  obtain ⟨ids, covers, earlier, later⟩ := backlog_eq_sums before after
  have known : before.contains id := by
    cases found : before.get? id with
    | some session => simp [SortedMap.contains, found]
    | none =>
        have empty : (find before id).pending.size = 0 := by rw [find, found]; rfl
        omega
  rw [earlier, later]
  exact Finset.sum_lt_sum (fun id _ => fewer id) ⟨id, covers id known, less⟩

theorem backlog_of_served (served : SessionsServed before after) : backlog after = backlog before := by
  refine backlog_congr fun id => ?_
  cases found : before.get? id with
  | some session =>
      obtain ⟨session', found', served⟩ := served.old id session found
      simp [find, found, found', Session.intake, served.pending]
  | none =>
      cases found' : after.get? id with
      | none => simp [find, found, found']
      | some session' =>
          have fresh := served.new id session' found found'
          simp [find, found, found', Session.intake, fresh.pending, Session.new, initial]

theorem backlog_insert {id : SessionId} {session : Session} (found : before.get? id = some session)
    (changed : Session) : backlog (before.insert id changed) + session.pending.size =
      backlog before + changed.pending.size := by
  have listed (value : Session) : backlog (before.insert id value) =
      value.pending.size + backlog (before.erase id) :=
    ((SortedMap.perm_insert before id value).map _).sum_eq
  have same := listed session
  rw [SortedMap.insert_of_get? found] at same
  rw [listed changed, same]
  omega

variable {awaited : List SessionId} {value : Resumed}

theorem Answer.fewer (answer : Answer before awaited value after) (id : SessionId) :
    (find after id).pending.size ≤ (find before id).pending.size := by
  obtain ⟨items, takes, _⟩ := answer.takes none id
  have := takes.size_eq
  omega

theorem Answer.backlog_lt (answer : Answer before awaited value after) (named : awaited ≠ [])
    (isOpen : ∀ id ∈ awaited, ∃ session, before.get? id = some session ∧ session.isOpen) :
    backlog after < backlog before := by
  have fewer := answer.fewer
  cases answer with
  | ended listed found finished =>
      obtain ⟨_, known, isOpen⟩ := isOpen _ listed
      cases found.symm.trans known
      rw [finished] at isOpen
      cases isOpen
  | @closed id listed canDeliver closing =>
      refine Checkpoint.backlog_lt fewer id ?_
      rw [find_consume_self closing]
      exact Nat.lt_of_succ_le (Nat.le_of_eq (size_tail closing))
  | received canDeliver data =>
      obtain ⟨id, rest, rfl⟩ := List.exists_cons_of_ne_nil named
      have listed : id ∈ id :: rest := List.mem_cons_self
      obtain ⟨_, item, _, _, arrived⟩ := canDeliver id listed
      obtain ⟨items, takes⟩ := collect_takes_head {} listed arrived
      have less := takes.size_eq
      rw [List.length_cons] at less
      exact Checkpoint.backlog_lt fewer id (by omega)

end Compare

/-- What an event finds to be consumed. -/
def backlogOf (loaded : Option Checkpoint) : Nat := loaded.elim 0 fun cp => backlog cp.sessions

end Checkpoint

/-- An event brings an item at most. -/
theorem Handler.Prepares.backlog_le {flowId : FlowId} {config : Config} {now : Timestamp}
    {payload : EventPayload} {loaded : Option Checkpoint} {prepared : Prepared}
    (prepares : Prepares flowId config now payload loaded prepared) :
    Checkpoint.backlog prepared.draft.checkpoint.sessions ≤ Checkpoint.backlogOf loaded + 1 := by
  have kept {cp : Checkpoint} {id : SessionId} {session : Session} {number : Nat} (item : Item)
      (found : cp.sessions.get? id = some session) (unseen : session.hasSeen number = false) :
      Checkpoint.backlog (keep cp id session number item).sessions =
        Checkpoint.backlog cp.sessions + 1 := by
    have new : session.pending.contains number = false := by
      simp only [Session.hasSeen, Bool.or_eq_false_iff] at unseen
      exact unseen.2
    have larger : (session.buffer number item).pending.size = session.pending.size + 1 :=
      SortedMap.size_insert item new
    have grown := Checkpoint.backlog_insert found (session.buffer number item)
    change Checkpoint.backlog (cp.sessions.insert id (session.buffer number item)) = _
    omega
  cases prepares with
  | started served rest =>
      rw [Checkpoint.backlog_of_served served]
      exact Nat.zero_le _
  | @kept id number item cp session found isOpen unseen waits => exact Nat.le_of_eq (kept item found unseen)
  | @answered id number item cp after session value found isOpen unseen taken =>
      obtain ⟨_, _, sessions, _, answer, rfl⟩ := Checkpoint.takeReady?_some taken
      exact Nat.le_trans (Checkpoint.backlog_le answer.fewer) (Nat.le_of_eq (kept item found unseen))
  | failed failed =>
      obtain ⟨_, served, _, rest⟩ := Draft.fail_ok failed
      rw [rest]
      exact Nat.le_succ_of_le (Nat.le_of_eq (Checkpoint.backlog_of_served served))
  | early | awake | again | restarted | timedOut | counted | confirmed => exact Nat.le_succ _

/-- A request that is not met by nothing: it asks for a confirmation at least, or for the items of one
session at least, all of which are open. -/
def Request.Demands (sessions : SortedMap SessionId Session) : Request → Prop
  | .receive awaited => awaited ≠ [] ∧
    ∀ id ∈ awaited, ∃ session, sessions.get? id = some session ∧ session.isOpen
  | .sendAndReceive _ awaited => awaited ≠ [] ∧
    ∀ id ∈ awaited, ∃ session, sessions.get? id = some session ∧ session.isOpen
  | .waitForConfirmations required => 1 ≤ required
  | .send _ => True
  | .sleep _ => True
  | .forceCheckpoint => True

/-- A flow whose requests all ask for something once it has opened and closed its sessions. -/
def Flow.Demanding (flow : Flow σ) : Prop :=
  ∀ (draft : Draft) now state request effects worked,
    flow.Suspends (.ofCheckpoint draft.checkpoint now) state request effects →
      draft.applyEffects effects = .ok worked → request.Demands worked.checkpoint.sessions

theorem Context.receive_open {ctx : Context} {ids : List SessionId} {request : Request}
    (h : ctx.receive ids = .ok request) :
    request = .receive ids ∧ ids ≠ [] ∧ ∀ id ∈ ids, ctx.IsOpen id := by
  have named : ids ≠ [] := by
    rintro rfl
    cases h
  unfold Context.receive at h
  rw [if_neg (by simpa using named)] at h
  simp only [bind_eq_ok, pure_eq_ok] at h
  obtain ⟨_, required, rfl⟩ := h
  refine ⟨rfl, named, ?_⟩
  clear named
  induction ids with
  | nil => exact nofun
  | cons first rest ih =>
      rw [List.forM, bind_eq_ok] at required
      obtain ⟨_, opened, others⟩ := required
      refine List.forall_mem_cons.2 ⟨?_, ih others⟩
      cases view : ctx.requireOpen first with
      | error error =>
          rw [view] at opened
          cases opened
      | ok view => exact ⟨_, requireOpen_ok.1 view⟩

namespace Draft

theorem Does.isOpen_of_sends {messages : List OutboundMessage} {a b : Draft}
    (does : Does (messages.map .send) a b) {id : SessionId} {session : Session}
    (found : a.checkpoint.sessions.get? id = some session) (isOpen : session.isOpen) :
    ∃ session, b.checkpoint.sessions.get? id = some session ∧ session.isOpen := by
  generalize listed : messages.map SessionAct.send = acts at does
  induction does generalizing messages session with
  | nil => exact ⟨session, found, isOpen⟩
  | tend tends _ ih => exact ih (by rw [tends.sessions]; exact found) isOpen listed
  | @act _ _ draft _ _ performed _ ih =>
      cases messages with
      | nil => cases listed
      | cons message messages =>
          cases listed
          obtain ⟨other, known, sends⟩ := sendMessage_replaces message _ _ performed
          rw [sends] at ih
          let sessions := draft.checkpoint.sessions
          by_cases here : id = message.sessionId
          · subst here
            cases found.symm.trans known
            exact ih (SortedMap.get?_insert_self sessions message.sessionId (sent session)) isOpen rfl
          · have kept := SortedMap.get?_insert_of_ne sessions (sent other) here
            exact ih (kept.trans found) isOpen rfl

/-- A flow that is resumed in place, after a request that asks for something, has had an item more
before. -/
theorem applyOutcome_backlog {draft taken : Draft} {outcome : FiberOutcome} {effects : Effects}
    {attempt : Attempt} {config : Config} {now : Timestamp} {value : Resumed}
    (applied : draft.applyOutcome outcome effects attempt config now = .ok (taken, .resume value))
    (demands : ∀ request continuation worked, outcome = .suspended request continuation →
      draft.applyEffects effects = .ok worked → request.Demands worked.checkpoint.sessions) :
    Checkpoint.backlog taken.checkpoint.sessions < Checkpoint.backlog draft.checkpoint.sessions := by
  obtain ⟨request, continuation, _, rfl, _, _⟩ := (applyOutcome_ok applied).of_resume
  simp only [applyOutcome, bind_eq_ok] at applied
  obtain ⟨worked, effected, applied⟩ := applied
  have demands := demands request continuation worked rfl effected
  obtain ⟨parked, parks, answered⟩ := suspend_eq_ok.1 applied
  obtain ⟨deadline, wait⟩ := park_waits parks
  have same : Checkpoint.backlog parked.checkpoint.sessions =
      Checkpoint.backlog draft.checkpoint.sessions :=
    Checkpoint.backlog_of_served ((applyEffects_work effected).sessions.trans (park_ok parks).1)
  rw [← same]
  obtain ⟨sessions, ends, rfl⟩ := answered_of_answerWait answered
  cases ends with
  | @confirmed required received counts =>
      have enough : required ≤ received := by
        by_contra few
        simp [answerWait, counts, few, Checkpoint.takeReady] at answered
      rw [wait] at counts
      cases request <;> cases counts
      exact absurd enough (Nat.not_le_of_lt demands)
  | @taken awaited _ _ _ listens answer =>
      have asks : awaited ≠ [] ∧ ∀ id ∈ awaited, ∃ session,
          worked.checkpoint.sessions.get? id = some session ∧ session.isOpen := by
        rw [wait] at listens
        cases request <;> cases listens <;> exact demands
      refine answer.backlog_lt asks.1 fun id listed => ?_
      obtain ⟨session, found, isOpen⟩ := asks.2 id listed
      exact (park_does parks).1.isOpen_of_sends found isOpen

end Draft

end DurableFlow
