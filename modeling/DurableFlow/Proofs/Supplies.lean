import DurableFlow.Proofs.Outlines
import DurableFlow.Proofs.Readiness

/-! # Items that are supplied

Of the items that are supplied to a flow, its sessions keep those that have come in and are still to be
consumed. Whatever the flow does, its sessions only drain: they keep nothing that they had not kept,
and as long as they are open they lose nothing but what they consume, `Drains`. So once everything that
is supplied has come in, no other way of keeping some of it would let a wait end that has not ended:
`Checkpoint.unready_of_covers`.
-/

namespace DurableFlow

open Stateful

/-- The items that may come in on the sessions of a flow, by number. -/
abbrev Supply := SessionId → Nat → Item → Prop

/-- No two items go by one number. -/
def Supply.Single (supply : Supply) : Prop :=
  ∀ id number item other, supply id number item → supply id number other → item = other

/-- Nothing is supplied but on known sessions. -/
def Supply.Known (supply : Supply) (sessions : SortedMap SessionId Session) : Prop :=
  ∀ id number item, supply id number item → ∃ session, sessions.get? id = some session

/-- The sessions keep nothing but what is supplied. -/
def Within (supply : Supply) (sessions : SortedMap SessionId Session) : Prop :=
  ∀ id session number item, sessions.get? id = some session →
    session.pending.get? number = some item → supply id number item

/-- The open sessions keep all that is supplied and still to be consumed. -/
def Covers (supply : Supply) (sessions : SortedMap SessionId Session) : Prop :=
  ∀ id session number item, sessions.get? id = some session → session.isOpen →
    session.nextReceive ≤ number → supply id number item → session.pending.get? number = some item

/-- A session that keeps nothing new, and loses nothing but what it consumes or by its end. -/
structure Session.Drains (before after : Session) : Prop where
  kept : ∀ number item, after.pending.get? number = some item →
    before.pending.get? number = some item
  left : after.isOpen → before.isOpen ∧ before.nextReceive ≤ after.nextReceive ∧
    ∀ number item, after.nextReceive ≤ number → before.pending.get? number = some item →
      after.pending.get? number = some item

namespace Session.Drains

theorem refl (session : Session) : session.Drains session :=
  ⟨fun _ _ held => held, fun opened => ⟨opened, Nat.le_refl _, fun _ _ _ held => held⟩⟩

theorem trans {a b c : Session} (ab : a.Drains b) (bc : b.Drains c) : a.Drains c := by
  refine ⟨fun number item held => ab.kept number item (bc.kept number item held), fun opened => ?_⟩
  obtain ⟨opened, later, left⟩ := bc.left opened
  obtain ⟨opened, earlier, before⟩ := ab.left opened
  refine ⟨opened, earlier.trans later, fun number item ahead held => ?_⟩
  exact left number item ahead (before number item (later.trans ahead) held)

theorem of_served {before after : Session} (served : before.Served after)
    (fades : after.isOpen → before.isOpen) : before.Drains after := by
  refine ⟨fun number item held => served.pending ▸ held, fun opened => ⟨fades opened, ?_, ?_⟩⟩
  · exact Nat.le_of_eq served.nextReceive.symm
  · exact fun number item _ held => served.pending ▸ held

theorem taken (session : Session) (item : Item) : session.Drains (session.taken item) := by
  refine ⟨fun number other held => SortedMap.get?_of_erase held, fun opened => ?_⟩
  refine ⟨?_, Nat.le_succ _, fun number other ahead held => ?_⟩
  · cases item with
    | data payload => exact opened
    | close => cases opened
  · have differs : number ≠ session.nextReceive := by
      rintro rfl
      exact Nat.not_succ_le_self _ ahead
    simp only [Session.taken, SortedMap.get?_erase]
    rw [if_neg fun same => differs (Std.LawfulEqCmp.eq_of_compare same), held]

end Session.Drains

/-- Sessions none of which is lost or keeps anything new, and which lose nothing but what they consume
or by their end. -/
structure Drains (before after : SortedMap SessionId Session) : Prop where
  old : ∀ id s, before.get? id = some s → ∃ s', after.get? id = some s' ∧ s.Drains s'
  new : ∀ id s', before.get? id = none → after.get? id = some s' → s'.pending = {}

namespace Drains

variable {a b c : SortedMap SessionId Session} {id : SessionId}

theorem refl (sessions : SortedMap SessionId Session) : Drains sessions sessions :=
  ⟨fun _ s found => ⟨s, found, .refl s⟩, fun _ _ missing found => by rw [missing] at found; cases found⟩

theorem trans (ab : Drains a b) (bc : Drains b c) : Drains a c where
  old id s found := by
    obtain ⟨s', found, first⟩ := ab.old id s found
    obtain ⟨s'', found, second⟩ := bc.old id s' found
    exact ⟨s'', found, first.trans second⟩
  new id s'' missing found := by
    cases middle : b.get? id with
    | none => exact bc.new id s'' middle found
    | some s' =>
        obtain ⟨_, found', drains⟩ := bc.old id s' middle
        rw [found] at found'
        cases found'
        have empty := ab.new id s' missing middle
        refine SortedMap.ext_get? fun number => ?_
        cases held : s''.pending.get? number with
        | none => rfl
        | some item =>
            have held := drains.kept number item held
            rw [empty] at held
            cases held

theorem of_served (served : SessionsServed a b)
    (fades : ∀ id s s', a.get? id = some s → b.get? id = some s' → s'.isOpen → s.isOpen) :
    Drains a b where
  old id s found := by
    obtain ⟨s', found', works⟩ := served.old id s found
    exact ⟨s', found', .of_served works (fades id s s' found found')⟩
  new id s' missing found := (served.new id s' missing found).pending

theorem insert {s s' : Session} (found : a.get? id = some s) (drains : s.Drains s') :
    Drains a (a.insert id s') where
  old other t known := by
    by_cases here : other = id
    · subst here
      rw [found] at known
      cases known
      exact ⟨s', SortedMap.get?_insert_self .., drains⟩
    · exact ⟨t, by rw [SortedMap.get?_insert_of_ne _ _ here, known], .refl t⟩
  new other t missing known := by
    have differs : other ≠ id := by
      rintro rfl
      rw [found] at missing
      cases missing
    rw [SortedMap.get?_insert_of_ne _ _ differs, missing] at known
    cases known

theorem within {supply : Supply} (drains : Drains a b) (within : Within supply a) :
    Within supply b := by
  intro id s' number item found held
  cases known : a.get? id with
  | none =>
      rw [drains.new id s' known found] at held
      cases held
  | some s =>
      obtain ⟨_, found', drained⟩ := drains.old id s known
      rw [found] at found'
      cases found'
      exact within id s number item known (drained.kept number item held)

theorem covers {supply : Supply} (drains : Drains a b) (known : supply.Known a)
    (covers : Covers supply a) : Covers supply b := by
  intro id s' number item found opened ahead supplied
  obtain ⟨s, known⟩ := known id number item supplied
  obtain ⟨_, found', drained⟩ := drains.old id s known
  rw [found] at found'
  cases found'
  obtain ⟨opened, earlier, left⟩ := drained.left opened
  exact left number item ahead (covers id s number item known opened (earlier.trans ahead) supplied)

theorem known {supply : Supply} (drains : Drains a b) (known : supply.Known a) : supply.Known b := by
  intro id number item supplied
  obtain ⟨s, found⟩ := known id number item supplied
  obtain ⟨s', found, _⟩ := drains.old id s found
  exact ⟨s', found⟩

end Drains

namespace Checkpoint

open Intake

variable {sessions : SortedMap SessionId Session}

theorem consume_drains (sessions : SortedMap SessionId Session) (id : SessionId) :
    Drains sessions (consume sessions id).2 := by
  cases head : (find sessions id).head? with
  | none =>
      rw [consume_of_stalled head]
      exact .refl sessions
  | some item =>
      obtain ⟨s, found, _, consumed⟩ := consume_of_head? head
      rw [consumed]
      exact .insert found (.taken s item)

theorem collect_drains (sessions : SortedMap SessionId Session) (messages : Messages)
    (ids : List SessionId) : Drains sessions (collect sessions messages ids).2 := by
  induction ids generalizing sessions messages with
  | nil => exact .refl sessions
  | cons first rest ih =>
      rw [collect_cons]
      exact (consume_drains sessions first).trans (ih _ _)

theorem takeReady?_drains {cp after : Checkpoint} {value : Resumed}
    (taken : cp.takeReady? = some (value, after)) : Drains cp.sessions after.sessions := by
  obtain ⟨awaited, _, sessions, _, answer, rfl⟩ := takeReady?_some taken
  cases answer with
  | ended => exact .refl _
  | closed => exact consume_drains _ _
  | received => exact collect_drains _ _ _

theorem head?_eq_some {id : SessionId} {item : Item} (head : (find sessions id).head? = some item) :
    ∃ session, sessions.get? id = some session ∧
      session.pending.get? session.nextReceive = some item := by
  rw [← next?_eq_head?] at head
  obtain ⟨session, found, next⟩ := Option.bind_eq_some_iff.1 head
  exact ⟨session, found, next⟩

theorem next_of_single {supply : Supply} (single : supply.Single) {m n : SortedMap SessionId Session}
    (same : outlines m = outlines n) (within : Within supply m) (within' : Within supply n)
    {id : SessionId} {item other : Item} (head : (find m id).head? = some item)
    (head' : (find n id).head? = some other) : item = other := by
  obtain ⟨s, found, next⟩ := head?_eq_some head
  obtain ⟨t, found', next'⟩ := head?_eq_some head'
  obtain ⟨_, known, outline⟩ := found_of_outlines same found
  rw [found'] at known
  cases known
  have number : s.outline.nextReceive = t.outline.nextReceive := congrArg (·.nextReceive) outline
  have supplied := within id s _ item found next
  rw [show s.nextReceive = t.nextReceive from number] at supplied
  exact single id _ item other supplied (within' id t _ other found' next')

/-- A wait that goes on although all that is supplied has come in goes on however much of it is
kept. -/
theorem unready_of_covers {supply : Supply} {cp held : Checkpoint} (same : held.outline = cp.outline)
    (within : Within supply held.sessions) (covers : Covers supply cp.sessions)
    (unready : cp.takeReady? = none) : held.takeReady? = none := by
  have waits : held.outline.waitingFor = cp.outline.waitingFor := congrArg (·.waitingFor) same
  have sessions : outlines held.sessions = outlines cp.sessions := congrArg (·.sessions) same
  refine unready_iff_waiting.2 fun awaited deadline wait => ?_
  have waiting := unready_iff_waiting.1 unready awaited deadline (waits.symm.trans wait)
  by_contra finished
  rcases readiness_cases sessions finished with ready | ⟨_, id, s, t, item, found, next, found', opened, late⟩
  · rw [waiting] at ready
    exact finished ready.symm
  · obtain ⟨_, known, outline⟩ := found_of_outlines sessions found
    rw [found'] at known
    cases known
    have number : s.outline.nextReceive = t.outline.nextReceive := congrArg (·.nextReceive) outline
    have kept := covers id t s.nextReceive item found' opened (Nat.le_of_eq number.symm)
      (within id s _ item found next)
    rw [show s.nextReceive = t.nextReceive from number] at kept
    rw [Session.next?, kept] at late
    cases late

end Checkpoint

namespace Draft

variable {draft written : Draft}

theorem Replaces.drains {f : Draft → Except OutcomeError Draft} {id : SessionId}
    {change : Session → Session} (replaces : Replaces f id change)
    (served : ∀ s : Session, s.Served (change s)) (fades : ∀ s, (change s).isOpen → s.isOpen)
    (h : f draft = .ok written) :
    DurableFlow.Drains draft.checkpoint.sessions written.checkpoint.sessions := by
  obtain ⟨s, found, same⟩ := replaces draft written h
  rw [same]
  exact .insert found (.of_served (served s) (fades s))

theorem foldlM_drains {α : Type} {f : Draft → α → Except OutcomeError Draft}
    (step : ∀ draft a next, f draft a = .ok next →
      DurableFlow.Drains draft.checkpoint.sessions next.checkpoint.sessions) {items : List α}
    (h : items.foldlM f draft = .ok written) :
    DurableFlow.Drains draft.checkpoint.sessions written.checkpoint.sessions :=
  foldlM_keeps (P := fun next => DurableFlow.Drains draft.checkpoint.sessions next.checkpoint.sessions)
    (fun b a b' before done => before.trans (step b a b' done)) (.refl _) h

theorem addSession_drains (cp : Checkpoint) (id : SessionId) (counterparty : Identity) :
    DurableFlow.Drains cp.sessions (cp.addSession id counterparty).sessions := by
  unfold Checkpoint.addSession
  split
  next => exact .refl _
  next missing =>
    have missing : cp.sessions.get? id = none := by simpa [SortedMap.contains] using missing
    refine .of_served (.insert_new missing counterparty) fun other s s' found found' opened => ?_
    have differs : other ≠ id := by
      rintro rfl
      rw [missing] at found
      cases found
    rw [SortedMap.get?_insert_of_ne _ _ differs, found] at found'
    cases found'
    exact opened

theorem addSessions_drains (initiated : List (SessionId × Identity)) (cp : Checkpoint) :
    DurableFlow.Drains cp.sessions
      (initiated.foldl (fun cp (id, counterparty) => cp.addSession id counterparty) cp).sessions := by
  induction initiated generalizing cp with
  | nil => exact .refl _
  | cons head rest ih => exact (addSession_drains cp head.1 head.2).trans (ih _)

theorem applyEffects_drains {effects : Effects} (h : draft.applyEffects effects = .ok written) :
    DurableFlow.Drains draft.checkpoint.sessions written.checkpoint.sessions := by
  refine (addSessions_drains effects.initiated draft.checkpoint).trans (foldlM_drains (fun _ id _ => ?_) h)
  exact (closeSession_replaces id).drains closed_served fun s opened => by cases opened

theorem park_drains {request : Request} {config : Config} {now : Timestamp}
    (h : draft.park request config now = .ok written) :
    DurableFlow.Drains draft.checkpoint.sessions written.checkpoint.sessions := by
  have sending {messages : List OutboundMessage} {sent : Draft}
      (h : messages.foldlM sendMessage draft = .ok sent) :
      DurableFlow.Drains draft.checkpoint.sessions sent.checkpoint.sessions :=
    foldlM_drains (fun _ message _ =>
      (sendMessage_replaces message).drains sent_served fun _ opened => opened) h
  simp only [park, bind_eq_ok] at h
  obtain ⟨deadline, _, ⟨worked, wait⟩, began, moved⟩ := h
  have begun : DurableFlow.Drains draft.checkpoint.sessions worked.checkpoint.sessions := by
    cases request with
    | send messages | sendAndReceive messages =>
        simp only [beginWait, bind_eq_ok, pure_eq_ok, Prod.mk.injEq] at began
        obtain ⟨_, sent, rfl, _⟩ := began
        exact sending sent
    | receive | sleep | waitForConfirmations | forceCheckpoint =>
        cases began
        exact .refl _
  obtain ⟨_, rfl⟩ := setStatus_ok.1 moved
  cases alarm : wait.alarm? <;> exact begun

/-- Whatever flow logic comes to, the sessions of its flow only drain. -/
theorem write_drains {outcome : FiberOutcome} {effects : Effects} {attempt : Attempt} {config : Config}
    {now : Timestamp} (wrote : draft.write outcome effects attempt config now = .ok written) :
    DurableFlow.Drains draft.checkpoint.sessions written.checkpoint.sessions := by
  have ended {sessions : SortedMap SessionId Session}
      (served : SessionsServed draft.checkpoint.sessions sessions)
      (finished : ∀ id s, sessions.get? id = some s → s.isOpen = false) :
      DurableFlow.Drains draft.checkpoint.sessions sessions :=
    .of_served served fun id _ s' _ found opened => by
      rw [finished id s' found] at opened
      cases opened
  cases outcome with
  | suspended request continuation =>
      simp only [write, bind_eq_ok] at wrote
      obtain ⟨worked, effected, parks⟩ := wrote
      have parked := park_drains parks
      exact (applyEffects_drains effected).trans parked
  | completed output =>
      obtain ⟨sessions, served, finished, rest⟩ := complete_ok wrote
      rw [rest]
      exact ended served finished
  | failed error =>
      simp only [write] at wrote
      split at wrote
      · obtain ⟨_, rest⟩ := retry_ok wrote
        rw [rest]
        exact .refl _
      · obtain ⟨sessions, served, finished, rest⟩ := fail_ok wrote
        rw [rest]
        exact ended served finished

end Draft

end DurableFlow
