import DurableFlow.Proofs.Farewells

/-! # With whom a session is

No session changes its counterparty, and what a flow sends on it is addressed to that one. A change of a
checkpoint with the records that go with it is `Addressed` if it respects both, and so is every change.
A session that flow logic opens under a new name is with the one for whom it was opened once the outcome
has been written.
-/

namespace DurableFlow

open Stateful

namespace Record

/-- To whom a record sends something on a session of a flow. -/
def addressee? (flow : FlowId) (id : SessionId) : Record → Option Identity
  | .sessionData flow' id' party _ _ => if flow' = flow ∧ id' = id then some party else none
  | .sessionClose flow' id' party _ => if flow' = flow ∧ id' = id then some party else none
  | _ => none

/-- To whom records send something on a session of a flow. -/
def addressees (flow : FlowId) (id : SessionId) (records : List Record) : List Identity :=
  records.filterMap (addressee? flow id)

variable {flow : FlowId} {id : SessionId}

theorem addressees_append (first second : List Record) :
    addressees flow id (first ++ second) = addressees flow id first ++ addressees flow id second :=
  List.filterMap_append

theorem addressees_eq_nil {records : List Record} (silent : sents flow id records = []) :
    addressees flow id records = [] := by
  refine List.filterMap_eq_nil_iff.2 fun record member => ?_
  have silent := List.filterMap_eq_nil_iff.1 silent record member
  cases record <;> simp_all [sent?, addressee?]

theorem flowId_of_addressee? {record : Record} {party : Identity}
    (addressed : record.addressee? flow id = some party) : record.flowId = flow := by
  cases record <;> simp_all [addressee?, flowId]

end Record

/-- With whom a session is, if it is known. -/
def Checkpoint.party? (cp : Option Checkpoint) (id : SessionId) : Option Identity :=
  (cp.bind fun cp => cp.sessions.get? id).map (·.counterparty)

namespace Checkpoint

variable {cp after : Checkpoint} {id : SessionId} {session : Session}

theorem party?_of_get? (found : cp.sessions.get? id = some session) :
    party? (some cp) id = some session.counterparty := by
  simp [party?, found]

theorem party?_putSession {changed : Session} (found : cp.sessions.get? id = some session)
    (same : changed.counterparty = session.counterparty) (other : SessionId) :
    party? (some (cp.putSession id changed)) other = party? (some cp) other := by
  by_cases here : other = id
  · subst here
    simp [party?, putSession, SortedMap.get?_insert_self, found, same]
  · simp [party?, putSession, SortedMap.get?_insert_of_ne _ _ here]

theorem party?_addSession (cp : Checkpoint) (id other : SessionId) (party : Identity) :
    party? (some (cp.addSession id party)) other =
      if other = id ∧ cp.sessions.contains id = false then some party else party? (some cp) other := by
  unfold addSession
  split
  next known => simp [known]
  next missing =>
    by_cases here : other = id
    · subst here
      simp [party?, SortedMap.get?_insert_self, missing, Session.new]
    · simp [party?, SortedMap.get?_insert_of_ne _ _ here, here]

theorem party?_eq_none (missing : cp.sessions.contains id = false) : party? (some cp) id = none := by
  simp_all [party?, SortedMap.contains]

theorem party?_of_received (received : SessionsReceived cp.sessions after.sessions) (id : SessionId) :
    party? (some after) id = party? (some cp) id := by
  cases found : cp.sessions.get? id with
  | none => simp [party?, found, received.new id found]
  | some session =>
      obtain ⟨session', found', _⟩ := received.old id session found
      simp [party?, found, found', received.counterparty id session session' found found']

end Checkpoint

/-- A change of a checkpoint by which every session that is known stays with its counterparty, and whose
records are addressed to the counterparties of the sessions on which they send. -/
structure Addressed (flow : FlowId) (before : Option Checkpoint) (records : List Record)
    (after : Option Checkpoint) : Prop where
  keeps : ∀ id party, Checkpoint.party? before id = some party → Checkpoint.party? after id = some party
  names : ∀ id, ∀ party ∈ Record.addressees flow id records, Checkpoint.party? after id = some party

namespace Addressed

variable {flow : FlowId} {a b c : Option Checkpoint}

theorem of_quiet {records : List Record} (quiet : ∀ id, Record.addressees flow id records = [])
    (keeps : ∀ id party, Checkpoint.party? a id = some party → Checkpoint.party? b id = some party) :
    Addressed flow a records b where
  keeps := keeps
  names id party named := by
    rw [quiet id] at named
    cases named

theorem of_one {record : Record} (id : SessionId) (party : Identity)
    (sends : ∀ other, record.addressee? flow other = if other = id then some party else none)
    (known : Checkpoint.party? a id = some party)
    (same : ∀ other, Checkpoint.party? b other = Checkpoint.party? a other) :
    Addressed flow a [record] b where
  keeps other _ found := (same other).trans found
  names other named member := by
    by_cases here : other = id
    · simp only [Record.addressees, List.filterMap_cons, sends, here, if_true, List.filterMap_nil,
        List.mem_singleton] at member
      rw [member, here, same, known]
    · simp [Record.addressees, sends, here] at member

theorem trans {first second : List Record} (ab : Addressed flow a first b)
    (bc : Addressed flow b second c) : Addressed flow a (first ++ second) c where
  keeps id party known := bc.keeps id party (ab.keeps id party known)
  names id party named := by
    rw [Record.addressees_append] at named
    rcases List.mem_append.1 named with earlier | later
    · exact bc.keeps id party (ab.names id party earlier)
    · exact bc.names id party later

end Addressed

namespace Draft

/-- An act sends to the counterparty of its session, if it sends something. -/
theorem perform_addressed {draft next : Draft} {act : SessionAct} (h : draft.perform act = .ok next) :
    draft.Emits Addressed next := by
  cases act with
  | add id party =>
      cases h
      have flowId := Checkpoint.flowId_addSession draft.checkpoint id party
      refine ⟨flowId, [], by simp, .of_quiet (fun _ => rfl) fun other known found => ?_⟩
      rw [Checkpoint.party?_addSession]
      split
      next new =>
        rw [new.1, Checkpoint.party?_eq_none new.2] at found
        cases found
      next => exact found
  | close id =>
      simp only [perform, closeSession, bind_eq_ok, pure_eq_ok, session_ok] at h
      obtain ⟨session, found, rfl⟩ := h
      refine ⟨rfl, _, rfl, .of_one id session.counterparty ?_ (Checkpoint.party?_of_get? found) ?_⟩
      · simp [Record.addressee?, Checkpoint.putSession, eq_comm, Session.reserve]
      · exact Checkpoint.party?_putSession found rfl
  | send message =>
      simp only [perform, sendMessage, bind_eq_ok, pure_eq_ok, session_ok] at h
      obtain ⟨session, found, rfl⟩ := h
      refine ⟨rfl, _, rfl, .of_one message.sessionId session.counterparty ?_
        (Checkpoint.party?_of_get? found) ?_⟩
      · simp [Record.addressee?, Checkpoint.putSession, eq_comm, Session.reserve]
      · exact Checkpoint.party?_putSession found rfl
  | giveUp reason id =>
      simp only [perform, errorSession, bind_eq_ok, pure_eq_ok, session_ok] at h
      obtain ⟨session, found, rfl⟩ := h
      refine ⟨rfl, _, rfl, .of_quiet (fun _ => rfl) fun other party known => ?_⟩
      refine (Checkpoint.party?_putSession found ?_ other).trans known
      rfl

end Draft

theorem Addressed.universal : Universal Addressed where
  received silent received := .of_quiet (fun id => Record.addressees_eq_nil (silent id))
    fun id _ known => (Checkpoint.party?_of_received received id).trans known
  trans := .trans
  nothing := .of_quiet (fun _ => rfl) fun _ _ known => known
  made _ := .of_quiet (fun _ => rfl) fun _ _ impossible => by cases impossible
  act := Draft.perform_addressed

/-- Sessions that are opened under names which differ from one another and from those that are known. -/
structure Effects.Fresh (effects : Effects) (cp : Checkpoint) : Prop where
  once : (effects.initiated.map Prod.fst).Nodup
  new : ∀ id party, (id, party) ∈ effects.initiated → cp.sessions.contains id = false

/-- What a flow that keeps to the primitives opens is new, if the sessions of its checkpoint are tidy. -/
theorem Context.Reaches.fresh {cp : Checkpoint} {now : Timestamp} {ctx : Context}
    (reaches : (Context.ofCheckpoint cp now).Reaches ctx) (tidy : Tidy cp.flowId cp.sessions) :
    ctx.effects.Fresh cp := by
  have start : (Context.ofCheckpoint cp now).Careful cp ∧
      (Context.ofCheckpoint cp now).effects.Fresh cp :=
    ⟨.ofCheckpoint tidy now, List.nodup_nil, fun _ _ impossible => by cases impossible⟩
  refine (reaches.keeps (P := fun ctx => ctx.Careful cp ∧ ctx.effects.Fresh cp) ?_ ?_ start).2
  · rintro ctx counterparty ⟨careful, fresh⟩
    refine ⟨careful.initiate counterparty, ?_⟩
    have named : ctx.nextSessionId = .own cp.flowId (ctx.sessions.size + 1) := by
      rw [← careful.mirrors.flowId]
      rfl
    have missing : ctx.sessions.contains ctx.nextSessionId = false := named ▸ careful.tidy.fresh
    rw [careful.mirrors.contains, Checkpoint.opened_contains, Bool.or_eq_false_iff] at missing
    obtain ⟨unknown, unopened⟩ := missing
    constructor
    · simp only [initiateSession, List.map_append, List.map_cons, List.map_nil]
      rw [← List.concat_eq_append]
      refine fresh.once.concat fun member => ?_
      obtain ⟨entry, opened, same⟩ := List.mem_map.1 member
      have differs := List.any_eq_false.1 unopened entry opened
      exact differs (by simp [same])
    · intro id party member
      rcases List.mem_append.1 member with before | here
      · exact fresh.new id party before
      · obtain ⟨rfl, rfl⟩ := Prod.mk.inj (List.mem_singleton.1 here)
        exact unknown
  · rintro ctx id next ⟨careful, fresh⟩ closed
    refine ⟨careful.close closed, ?_⟩
    obtain ⟨_, _, _, rfl⟩ := closeSession_ok closed
    exact ⟨fresh.once, fresh.new⟩

namespace Draft

theorem Does.split {first second : List SessionAct} {draft after : Draft}
    (does : Does (first ++ second) draft after) :
    ∃ middle, Does first draft middle ∧ Does second middle after := by
  generalize whole : first ++ second = acts at does
  induction does generalizing first with
  | nil =>
      obtain ⟨rfl, rfl⟩ := List.append_eq_nil_iff.1 whole
      exact ⟨_, .nil, .nil⟩
  | @act act acts draft next after performed rest ih =>
      cases first with
      | nil =>
          cases whole
          exact ⟨_, .nil, .act performed rest⟩
      | cons head others =>
          obtain ⟨rfl, same⟩ := List.cons.inj whole
          obtain ⟨middle, before, later⟩ := ih same
          exact ⟨middle, .act performed before, later⟩
  | tend tends rest ih =>
      obtain ⟨middle, before, later⟩ := ih whole
      exact ⟨middle, .tend tends before, later⟩

theorem Does.adds {id : SessionId} {party : Identity} {acts : List SessionAct} {draft after : Draft}
    (does : Does (.add id party :: acts) draft after)
    (missing : draft.checkpoint.sessions.contains id = false) :
    Checkpoint.party? (some after.checkpoint) id = some party := by
  generalize whole : SessionAct.add id party :: acts = all at does
  induction does with
  | nil => cases whole
  | act performed rest ih =>
      cases whole
      cases performed
      obtain ⟨_, _, addressed⟩ := (Addressed.universal.does rest).records
      refine addressed.keeps id party ?_
      rw [Checkpoint.party?_addSession, if_pos ⟨rfl, missing⟩]
  | tend tends rest ih =>
      rw [← tends.sessions] at missing
      exact ih missing whole

theorem Does.opens {effects : Effects} {more : List SessionAct} {draft after : Draft}
    (does : Does (effects.acts ++ more) draft after) (fresh : effects.Fresh draft.checkpoint)
    {id : SessionId} {party : Identity} (member : (id, party) ∈ effects.initiated) :
    Checkpoint.party? (some after.checkpoint) id = some party := by
  obtain ⟨earlier, later, split⟩ := List.append_of_mem member
  have once := fresh.once
  rw [Effects.acts, split, List.map_append, List.append_assoc, List.append_assoc] at does
  rw [split, List.map_append] at once
  obtain ⟨middle, before, since⟩ := does.split
  refine since.adds ?_
  rw [before.contains, fresh.new id party member, Bool.false_or, List.any_eq_false]
  intro act added
  obtain ⟨entry, among, rfl⟩ := List.mem_map.1 added
  have differs := (List.nodup_append.1 once).2.2 entry.1 (List.mem_map_of_mem among) id
    List.mem_cons_self
  simpa [SessionAct.adds, eq_comm] using differs

/-- Once an outcome has been written that is no failure, the sessions which its logic has opened are with
those for whom it has. -/
theorem applyOutcome_opens {draft : Draft} {outcome : FiberOutcome} {effects : Effects}
    {attempt : Attempt} {config : Config} {now : Timestamp} {result : Draft × Next}
    (fresh : effects.Fresh draft.checkpoint) (succeeds : ∀ error, outcome ≠ .failed error)
    (h : draft.applyOutcome outcome effects attempt config now = .ok result)
    {id : SessionId} {party : Identity} (member : (id, party) ∈ effects.initiated) :
    Checkpoint.party? (some result.1.checkpoint) id = some party := by
  have performs := applyOutcome_performs h
  cases performs with
  | @suspended request continuation parked does status =>
      have opened := does.opens fresh member
      rcases answerWait_cases parked with done | ⟨_, sessions, answered, ended⟩
      · rw [done]
        exact opened
      · rw [ended]
        exact (Checkpoint.party?_of_received (.of_answered answered) id).trans opened
  | completed works closes => exact (works.trans closes).opens fresh member
  | retried does | failed does => exact absurd rfl (succeeds _)

end Draft

end DurableFlow
