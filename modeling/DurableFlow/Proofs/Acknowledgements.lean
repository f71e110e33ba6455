import DurableFlow.Proofs.Delivery
import DurableFlow.Proofs.Outbound

/-! # What a flow acknowledges

An item is acknowledged in the batch of the write that keeps it. So over the writes of a flow the
acknowledgements of a session are the numbers of the items that it has taken in, each once, and
`Intake.Accounts` says which these are: those consumed since and those that are pending.
-/

namespace DurableFlow

open Stateful

namespace Record

/-- The number that a record acknowledges on a session of a flow. -/
def acked? (flow : FlowId) (id : SessionId) : Record → Option Nat
  | .sessionAck flow' id' number => if flow' = flow ∧ id' = id then some number else none
  | _ => none

/-- What records acknowledge on a session of a flow. -/
def acks (flow : FlowId) (id : SessionId) (records : List Record) : List Nat :=
  records.filterMap (acked? flow id)

theorem acks_append (flow : FlowId) (id : SessionId) (first second : List Record) :
    acks flow id (first ++ second) = acks flow id first ++ acks flow id second :=
  List.filterMap_append

theorem acks_eq_nil {records : List Record} (apart : ∀ record ∈ records, record.session? = none)
    (flow : FlowId) (id : SessionId) : acks flow id records = [] := by
  refine List.filterMap_eq_nil_iff.2 fun record member => ?_
  have apart := apart record member
  cases record <;> first | rfl | cases apart

end Record

namespace Draft

/-- A change of a draft that acknowledges nothing. -/
def Unacked (before after : Draft) : Prop :=
  ∃ more, after.records = before.records ++ more ∧ ∀ flow id, Record.acks flow id more = []

namespace Unacked

theorem refl (draft : Draft) : draft.Unacked draft := ⟨[], by simp, fun _ _ => rfl⟩

theorem trans {a b c : Draft} (ab : a.Unacked b) (bc : b.Unacked c) : a.Unacked c := by
  obtain ⟨first, recordsB, silent⟩ := ab
  obtain ⟨second, recordsC, silent'⟩ := bc
  refine ⟨first ++ second, by rw [recordsC, recordsB, List.append_assoc], fun flow id => ?_⟩
  rw [Record.acks_append, silent, silent', List.append_nil]

theorem of_perform {draft next : Draft} {act : SessionAct} (h : draft.perform act = .ok next) :
    draft.Unacked next := by
  cases act with
  | add id counterparty =>
      cases h
      exact refl _
  | close id =>
      simp only [perform, closeSession, bind_eq_ok, pure_eq_ok, session_ok] at h
      obtain ⟨session, found, rfl⟩ := h
      exact ⟨[_], rfl, fun _ _ => rfl⟩
  | send message =>
      simp only [perform, sendMessage, bind_eq_ok, pure_eq_ok, session_ok] at h
      obtain ⟨session, found, rfl⟩ := h
      exact ⟨[_], rfl, fun _ _ => rfl⟩
  | giveUp reason id =>
      simp only [perform, errorSession, bind_eq_ok, pure_eq_ok, session_ok] at h
      obtain ⟨session, found, rfl⟩ := h
      exact ⟨[_], rfl, fun _ _ => rfl⟩

theorem of_does {acts : List SessionAct} {draft after : Draft} (does : Does acts draft after) :
    draft.Unacked after := by
  refine does.keeps refl (fun _ _ _ => trans) (fun _ _ _ => of_perform) fun _ _ tends => ?_
  obtain ⟨more, records, apart⟩ := tends.records
  exact ⟨more, records, Record.acks_eq_nil apart⟩

theorem answerWait (parked : Draft) : parked.Unacked parked.answerWait.1 := by
  rcases answerWait_cases parked with done | ⟨_, _, _, ended⟩
  · rw [done]
    exact refl parked
  · rw [ended]
    exact ⟨[], by simp, fun _ _ => rfl⟩

theorem of_applyOutcome {draft : Draft} {outcome : FiberOutcome} {effects : Effects}
    {attempt : Attempt} {config : Config} {now : Timestamp} {result : Draft × Next}
    (h : draft.applyOutcome outcome effects attempt config now = .ok result) :
    draft.Unacked result.1 := by
  have performs := applyOutcome_performs h
  cases performs with
  | suspended does status => exact (of_does does).trans (answerWait _)
  | completed works closes => exact (of_does works).trans (of_does closes)
  | retried does | failed does => exact of_does does

end Unacked

/-- A change of a draft that acknowledges nothing and takes items off sessions from the front only. -/
structure Consumes (before after : Draft) : Prop where
  unacked : before.Unacked after
  takes : ∀ id, ∃ items, (Intake.find before.checkpoint.sessions id).Takes items
    (Intake.find after.checkpoint.sessions id)

namespace Consumes

theorem refl (draft : Draft) : draft.Consumes draft := ⟨.refl draft, fun _ => ⟨[], .none⟩⟩

theorem trans {a b c : Draft} (ab : a.Consumes b) (bc : b.Consumes c) : a.Consumes c := by
  refine ⟨ab.unacked.trans bc.unacked, fun id => ?_⟩
  obtain ⟨first, takes⟩ := ab.takes id
  obtain ⟨second, takes'⟩ := bc.takes id
  exact ⟨first ++ second, takes.trans takes'⟩

theorem running (draft : Draft) : draft.Consumes draft.running :=
  ⟨⟨[], by simp [Draft.running], fun _ _ => rfl⟩, fun _ => ⟨[], .none⟩⟩

theorem of_applyOutcome {draft : Draft} {outcome : FiberOutcome} {effects : Effects}
    {attempt : Attempt} {config : Config} {now : Timestamp} {result : Draft × Next}
    (h : draft.applyOutcome outcome effects attempt config now = .ok result) :
    draft.Consumes result.1 := by
  refine ⟨.of_applyOutcome h, fun id => ?_⟩
  have applied := applyOutcome_ok h
  cases applied with
  | @suspended request continuation parked parks =>
      rw [← parks.sessions.find_eq id]
      rcases answerWait_cases parked with done | ⟨value, sessions, answered, ended⟩
      · rw [done]
        exact ⟨[], .none⟩
      · rw [ended]
        cases answered with
        | confirmed wait => exact ⟨[], .none⟩
        | taken wait answer =>
            obtain ⟨items, takes, _⟩ := answer.takes none id
            exact ⟨items, takes⟩
  | completed served finished rest | failed served finished rest =>
      simp only [rest, served.find_eq id]
      exact ⟨[], .none⟩
  | retried retryable rest =>
      simp only [rest]
      exact ⟨[], .none⟩

theorem of_settles {settings : Settings} {attempt : Attempt} {draft after : Draft}
    (settles : draft.Settles settings attempt after) : draft.Consumes after := by
  obtain ⟨last, _, _, _, consumes, applied⟩ := settles.induction (P := fun _ => draft.Consumes)
    (fun _ _ _ _ _ _ consumes applied =>
      consumes.trans ((of_applyOutcome applied).trans (running _))) (refl draft)
  exact consumes.trans (of_applyOutcome applied)

end Consumes

end Draft

namespace Handler.Prepares

variable {flowId : FlowId} {payload : EventPayload} {config : Config} {now : Timestamp}
  {loaded : Option Checkpoint} {prepared : Prepared}

theorem acks_eq (prepares : Prepares flowId config now payload loaded prepared) (id : SessionId) :
    Record.acks flowId id prepared.draft.records = (payload.accepted id).map Prod.fst := by
  cases prepares with
  | @kept other number | @answered other number =>
      by_cases here : other = id <;>
        simp [Record.acks, Record.acked?, EventPayload.accepted, here]
  | failed failed =>
      obtain ⟨more, records, silent⟩ := Draft.Unacked.of_does (Draft.fail_does failed)
      rw [records, List.nil_append, silent]
      rfl
  | started | early | awake | again | restarted | timedOut | counted | confirmed => rfl

theorem takes (prepares : Prepares flowId config now payload loaded prepared) (id : SessionId) :
    ∃ items, (Intake.find (waiting payload loaded prepared).sessions id).Takes items
      (Intake.find prepared.draft.checkpoint.sessions id) := by
  cases prepares with
  | answered found isOpen unseen taken =>
      obtain ⟨_, _, sessions, _, answer, rfl⟩ := Checkpoint.takeReady?_some taken
      obtain ⟨items, takes, _⟩ := answer.takes none id
      simp only [waiting, found]
      exact ⟨items, takes⟩
  | kept found isOpen unseen waits =>
      simp only [waiting, found]
      exact ⟨[], .none⟩
  | started | early | awake | again | restarted | timedOut | counted | confirmed | failed =>
      exact ⟨[], .none⟩

end Handler.Prepares

/-- What an event leads to acknowledges the item it adds to what its session has taken in. -/
theorem Plan.Arises.accounts {σ : Type} {settings : Settings} {event : Event}
    {loaded : Option Checkpoint} {commit : Commit σ} {prepared : Prepared} {draft : Draft}
    (arises : Arises settings event loaded commit prepared draft)
    {id : SessionId} {accepted removed : List (Nat × Item)}
    (accounts : (Intake.stored loaded id).Accounts accepted removed) :
    ∃ gone, (Intake.stored (some commit.written) id).Accounts
        (accepted ++ event.payload.accepted id) gone ∧
      Record.acks event.flowId id commit.records = (event.payload.accepted id).map Prod.fst := by
  have prepares := Handler.prepare_prepares arises.prepares
  have consumes : prepared.draft.Consumes draft := by
    cases arises.settles with
    | skipped => exact .refl _
    | ran enters settles => exact (Draft.Consumes.running _).trans (.of_settles settles)
  obtain ⟨first, takes⟩ := prepares.takes id
  obtain ⟨second, takes'⟩ := consumes.takes id
  obtain ⟨more, records, silent⟩ := consumes.unacked
  refine ⟨removed ++ (first ++ second), ?_, ?_⟩
  · rw [Intake.stored, Commit.written, arises.checkpoint]
    exact (prepares.accounts accounts).takes (takes.trans takes')
  · rw [arises.records, records, Record.acks_append, silent, List.append_nil, prepares.acks_eq]

namespace Fleet

variable {σ δ π : Type}

/-- What the writes of a flow have acknowledged on a session is what the session has taken in. -/
theorem Law.Line.accounts {flow : FlowId} {writes : List Write}
    (line : (Law.plain : Law σ δ).Line flow writes) (id : SessionId) :
    ∃ accepted removed, (Intake.stored (Write.last? writes) id).Accounts accepted removed ∧
      Record.acks flow id (writes.flatMap (·.records)) = accepted.map Prod.fst := by
  induction line with
  | nil => exact ⟨[], [], .initial, rfl⟩
  | @write writes dispatcher ticket settings event commit line mine allowed planned ih =>
      subst mine
      obtain ⟨prepared, draft, arises⟩ := planned
      obtain ⟨accepted, removed, accounts, acked⟩ := ih
      obtain ⟨gone, accounts, added⟩ := arises.accounts accounts
      refine ⟨accepted ++ event.payload.accepted id, gone, ?_, ?_⟩
      · rw [Write.last?, List.getLast?_concat, Option.map_some]
        exact accounts
      · simp only [List.flatMap_append, List.flatMap_cons, List.flatMap_nil, List.append_nil]
        rw [Record.acks_append, acked, added, List.map_append]

/-- Whatever flow logic does, and however the work of any number of dispatchers interleaves, breaks
off and starts again: for every session of a stored checkpoint the numbers that were acknowledged,
over the writes of its flow so far, are distinct, and they are those of the items consumed since and
of the items that are pending. -/
theorem acknowledges_what_is_durable [DecidableEq δ] (publishers : δ → Publisher π)
    (hosts : δ → Host σ) (published : π) (moves : List (Move σ δ)) (flow : FlowId) (id : SessionId) :
    let fleet := (launch hosts published).run publishers moves
    let acks := Record.acks flow id ((Write.ofFlow fleet.writes flow).flatMap (·.records))
    acks.Nodup ∧ ∀ cp session, fleet.stored.get? flow = some cp →
      cp.sessions.get? id = some session → ∀ number, number ∈ acks ↔
        (1 ≤ number ∧ number < session.nextReceive) ∨ session.pending.contains number := by
  have sound := Law.sound_of_run Law.plain_kept publishers
    (Law.sound_launch hosts published fun _ => trivial) moves fun _ _ _ _ => trivial
  obtain ⟨accepted, removed, accounts, acked⟩ := (sound.lines flow).accounts id
  refine ⟨acked ▸ accounts.once, fun cp session stored found number => ?_⟩
  rw [← sound.stored, stored, Intake.stored_of_get? found] at accounts
  have consumed : number ∈ removed.map Prod.fst ↔ 1 ≤ number ∧ number < session.nextReceive := by
    have := accounts.sound.one_le
    rw [accounts.numbers, List.mem_range'_1]
    simp only [Session.intake] at this ⊢
    omega
  rw [acked, ← consumed, SortedMap.contains, Option.isSome_iff_exists]
  constructor
  · intro member
    obtain ⟨⟨number, item⟩, held, rfl⟩ := List.mem_map.1 member
    refine ((accounts.accepted_iff _ _).1 held).imp (fun gone => ?_) fun pending => ⟨item, pending⟩
    exact List.mem_map_of_mem gone
  · rintro (gone | ⟨item, pending⟩)
    · obtain ⟨⟨number, item⟩, held, rfl⟩ := List.mem_map.1 gone
      exact List.mem_map_of_mem ((accounts.accepted_iff _ _).2 (.inl held))
    · have member := (accounts.accepted_iff number item).2 (.inr pending)
      exact List.mem_map_of_mem member

end Fleet

end DurableFlow
