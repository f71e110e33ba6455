import Mathlib.Data.List.Nodup
import DurableFlow.Proofs.Conversations
import DurableFlow.Proofs.Watching

/-! # The order of arrival does not matter

Items arrive in any order, and what an order decides is only which events resume a flow and how often
it is resumed within one event. Every order of the same arrivals supplies the same items, and once all
of them have come in a conversational flow has come to its end with them, so `Converses.confluent`
applies: `Services.order_independent`.
-/

namespace DurableFlow

open Stateful

variable {σ : Type}

namespace Checkpoint.Rests

theorem stamp {cp : Checkpoint} (rests : cp.Rests) (version : Nat) (updatedAt : Timestamp) :
    Rests { cp with version, updatedAt } := by
  refine ⟨rests.listens, unready_iff_waiting.2 fun awaited deadline wait => ?_⟩
  exact unready_iff_waiting.1 rests.unready awaited deadline wait

end Checkpoint.Rests

theorem Handler.Prepares.rests {flowId : FlowId} {config : Config} {now : Timestamp}
    {payload : EventPayload} {loaded : Option Checkpoint} {prepared : Prepared}
    (prepares : Prepares flowId config now payload loaded prepared)
    (rests : ∀ cp, loaded = some cp → cp.Rests) (skips : prepared.decision = .skip) :
    prepared.draft.checkpoint.Rests := by
  cases prepares with
  | kept found isOpen unseen unready => exact ⟨(rests _ rfl).listens, unready⟩
  | early => exact rests _ rfl
  | counted wait sum few =>
      rcases (rests _ rfl).listens with nothing | ⟨_, _, other, _⟩
      · rw [wait] at nothing
        cases nothing
      · rw [wait] at other
        cases other
  | failed failed =>
      obtain ⟨_, _, _, rest⟩ := Draft.fail_ok failed
      refine ⟨?_, ?_⟩
      · rw [rest]
        exact .inl rfl
      · rw [rest]
        rfl
  | started | answered | awake | again | restarted | timedOut | confirmed => cases skips

/-- Code that gives one owner the same flow under one name, and writes fibers in one way. -/
def Code.Gives (owner : Identity) (name : String) (flow : Flow σ) (serializer : FiberSerializer)
    (other : Identity) (code : Code σ) : Prop :=
  code.serializer = serializer ∧ (other = owner → code.registry.get? name = some flow)

variable {owner : Identity} {name : String} {flow : Flow σ} {serializer : FiberSerializer}
  {recipe : Recipe σ}

/-- All checkpoints of a flow rest. -/
def Store.RestsAt (store : Store) (owner : Identity) (name : String) : Prop :=
  ∀ id cp, store.get? id = some cp → cp.owner = owner → cp.flowName = name → cp.Rests

theorem Prepared.Turns.rests (conversational : flow.Conversational) {settings : Settings}
    {prepared : Prepared} {calls : List Call} {draft : Draft}
    (turns : prepared.Turns (Code.Gives owner name flow serializer) settings calls (some draft))
    (skipped : prepared.decision = .skip → prepared.draft.checkpoint.Rests)
    (owned : prepared.draft.checkpoint.owner = owner)
    (named : prepared.draft.checkpoint.flowName = name) : draft.checkpoint.Rests := by
  generalize same : some draft = left at turns
  cases turns with
  | skipped skips =>
      cases same
      exact skipped skips
  | stopped => cases same
  | unregistered starts known unknown applied =>
      rw [named, known.2 owned] at unknown
      cases unknown
  | @ran _ code _ _ enters known turns =>
      subst same
      exact turns.rests conversational ((congrArg code.registry.get? named).trans (known.2 owned))

namespace Services

variable {publisher : Publisher (List Record)} {site after : Site (σ × List Call) Store (List Record)}
  {settings : Settings} {event : Event} {calls : List Call}

theorem Hears.rests {result : Except Stop ProcessingOutcome} (conversational : flow.Conversational)
    (hears : Hears publisher (Code.Gives owner name flow serializer) settings event site calls result
      after) (rests : site.stored.RestsAt owner name) : after.stored.RestsAt owner name := by
  cases hears with
  | discarded _ stored | broken stored | stopped _ _ _ stored =>
      rw [stored]
      exact rests
  | committed live prepares turns stored published =>
      rw [stored]
      refine SortedMap.forall_get?_insert rests fun owned named => ?_
      have same := turns.sameFlow
      have prepares := Handler.prepare_prepares prepares
      have owned := same.owner.symm.trans owned
      have named := same.flowName.symm.trans named
      refine (turns.rests conversational (prepares.rests fun cp found => ?_) owned named).stamp _ _
      rw [found] at prepares
      exact rests _ cp found (prepares.keeps.1.owner.symm.trans owned)
        (prepares.keeps.1.flowName.symm.trans named)

theorem live_rests (conversational : flow.Conversational)
    (conforms : recipe.Conforms (Code.Gives owner name flow serializer) serializer)
    (watched : site.Watched recipe (Code.Gives owner name flow serializer) serializer)
    (rests : site.stored.RestsAt owner name) (moment : Moment) :
    (Services.live ⟨Store.inMemory, publisher⟩ site moment).2.stored.RestsAt owner name := by
  cases moment with
  | event settings event =>
      obtain ⟨_, _, hears⟩ := handle_hears publisher conforms watched settings event
      exact hears.rests conversational rests
  | beginMaintenance other attached => cases attached <;> exact rests
  | endMaintenance other => exact rests

/-- A conversational flow rests whenever it is stored. -/
theorem run_rests (conversational : flow.Conversational)
    (conforms : recipe.Conforms (Code.Gives owner name flow serializer) serializer)
    (watched : site.Watched recipe (Code.Gives owner name flow serializer) serializer)
    (rests : site.stored.RestsAt owner name) (moments : List Moment) :
    (Services.run ⟨Store.inMemory, publisher⟩ moments site).2.stored.RestsAt owner name := by
  induction moments generalizing site with
  | nil => exact rests
  | cons moment rest ih =>
      exact ih (live_watched publisher conforms watched moment)
        (live_rests conversational conforms watched rests moment)

end Services

/-- An item that arrives on a session under a number. -/
structure Arrival where
  session : SessionId
  number : Nat
  item : Item

def Arrival.event (arrival : Arrival) (flowId : FlowId) : Event :=
  ⟨flowId, .session arrival.session arrival.number arrival.item⟩

/-- What some sessions keep, and the arrivals under numbers that they keep nothing for. -/
def Supply.of (sessions : SortedMap SessionId Session) (arrivals : List Arrival) : Supply :=
  fun id number item =>
    (∃ session, sessions.get? id = some session ∧ session.pending.get? number = some item) ∨
      (∀ session, sessions.get? id = some session → session.pending.get? number = none) ∧
        ⟨id, number, item⟩ ∈ arrivals

namespace Supply

variable {sessions : SortedMap SessionId Session} {arrivals : List Arrival}

theorem single_of (once : (arrivals.map fun a => (a.session, a.number)).Nodup) :
    (of sessions arrivals).Single := by
  rintro id number item other (⟨s, found, held⟩ | ⟨free, arrives⟩) (⟨t, found', held'⟩ | ⟨free', arrives'⟩)
  · rw [found] at found'
    cases found'
    rw [held] at held'
    cases held'
    rfl
  · rw [free' s found] at held
    cases held
  · rw [free t found'] at held'
    cases held'
  · cases List.inj_on_of_nodup_map once arrives arrives' rfl
    rfl

theorem known_of (known : ∀ a ∈ arrivals, sessions.contains a.session) :
    (of sessions arrivals).Known sessions := by
  rintro id number item (⟨s, found, _⟩ | ⟨_, arrives⟩)
  · exact ⟨s, found⟩
  · exact Option.isSome_iff_exists.1 (known _ arrives)

theorem within_of (sessions : SortedMap SessionId Session) (arrivals : List Arrival) :
    Within (of sessions arrivals) sessions :=
  fun _ s _ _ found held => .inl ⟨s, found, held⟩

theorem covers_of (sessions : SortedMap SessionId Session) : Covers (of sessions []) sessions := by
  rintro id s number item found _ _ (⟨_, found', held⟩ | ⟨_, arrives⟩)
  · rw [found] at found'
    cases found'
    exact held
  · cases arrives

end Supply

namespace Covers

variable {sessions : SortedMap SessionId Session} {initial : SortedMap SessionId Session}
  {came : List Arrival} {arrival : Arrival} {session : Session}

theorem supplied {arrivals : List Arrival} (covers : Covers (Supply.of initial came) sessions)
    (found : sessions.get? arrival.session = some session) (isOpen : session.isOpen)
    (unseen : session.hasSeen arrival.number = false) (arrives : arrival ∈ arrivals) :
    Supply.of initial arrivals arrival.session arrival.number arrival.item := by
  simp only [Session.hasSeen, Bool.or_eq_false_iff, decide_eq_false_iff_not, Nat.not_lt] at unseen
  refine .inr ⟨fun s known => ?_, arrives⟩
  cases held : s.pending.get? arrival.number with
  | none => rfl
  | some item =>
      have kept := covers _ session _ item found isOpen unseen.1 (.inl ⟨s, known, held⟩)
      rw [SortedMap.contains, kept] at unseen
      cases unseen.2

theorem seen {supply : Supply} (covers : Covers (Supply.of initial came) sessions)
    (single : supply.Single) (within : Within supply sessions)
    (supplies : ∀ id number item, Supply.of initial (came ++ [arrival]) id number item →
      supply id number item)
    (seen : ∀ session, sessions.get? arrival.session = some session → session.isOpen →
      session.hasSeen arrival.number) :
    Covers (Supply.of initial (came ++ [arrival])) sessions := by
  intro id s number item found isOpen ahead supplied
  rcases supplied with kept | ⟨free, arrives⟩
  · exact covers id s number item found isOpen ahead (.inl kept)
  rcases List.mem_append.1 arrives with before | last
  · exact covers id s number item found isOpen ahead (.inr ⟨free, before⟩)
  cases List.mem_singleton.1 last
  have seen := seen s found isOpen
  simp only [Session.hasSeen, Bool.or_eq_true, decide_eq_true_eq, Nat.not_lt.2 ahead, false_or] at seen
  obtain ⟨other, held⟩ := Option.isSome_iff_exists.1 seen
  rw [held, single id number other item (within id s number other found held)
    (supplies id number item (.inr ⟨free, arrives⟩))]

theorem buffer {supply : Supply} (covers : Covers (Supply.of initial came) sessions)
    (single : supply.Single)
    (supplies : ∀ id number item, Supply.of initial (came ++ [arrival]) id number item →
      supply id number item)
    (arrives : supply arrival.session arrival.number arrival.item)
    (found : sessions.get? arrival.session = some session) :
    Covers (Supply.of initial (came ++ [arrival]))
      (sessions.insert arrival.session (session.buffer arrival.number arrival.item)) := by
  intro id s number item known isOpen ahead supplied
  have earlier (t : Session) (known : sessions.get? id = some t) (opened : t.isOpen)
      (ahead : t.nextReceive ≤ number) (other : ⟨id, number, item⟩ ≠ arrival) :
      t.pending.get? number = some item := by
    refine covers id t number item known opened ahead (supplied.imp_right fun ⟨free, arrives⟩ => ?_)
    exact ⟨free, (List.mem_append.1 arrives).resolve_right fun last =>
      other (List.mem_singleton.1 last)⟩
  by_cases here : id = arrival.session
  · subst here
    rw [SortedMap.get?_insert_self] at known
    cases known
    by_cases same : number = arrival.number
    · subst same
      rw [single _ _ item arrival.item (supplies _ _ item supplied) arrives]
      exact SortedMap.get?_insert_self ..
    · simp only [Session.buffer, SortedMap.get?_insert_of_ne _ _ same]
      exact earlier session found isOpen ahead fun equal => same (congrArg Arrival.number equal)
  · rw [SortedMap.get?_insert_of_ne _ _ here] at known
    exact earlier s known isOpen ahead fun equal => here (congrArg Arrival.session equal)

end Covers

theorem Within.buffer {supply : Supply} {sessions : SortedMap SessionId Session} {arrival : Arrival}
    {session : Session} (within : Within supply sessions)
    (arrives : supply arrival.session arrival.number arrival.item)
    (found : sessions.get? arrival.session = some session) :
    Within supply
      (sessions.insert arrival.session (session.buffer arrival.number arrival.item)) := by
  intro id s number item known held
  by_cases here : id = arrival.session
  · subst here
    rw [SortedMap.get?_insert_self] at known
    cases known
    by_cases same : number = arrival.number
    · subst same
      simp only [Session.buffer, SortedMap.get?_insert_self] at held
      cases held
      exact arrives
    · simp only [Session.buffer, SortedMap.get?_insert_of_ne _ _ same] at held
      exact within _ session number item found held
  · rw [SortedMap.get?_insert_of_ne _ _ here] at known
    exact within id s number item known held

theorem Supply.Known.buffer {supply : Supply} {sessions : SortedMap SessionId Session}
    (known : supply.Known sessions) (id : SessionId) (session : Session) :
    supply.Known (sessions.insert id session) := by
  intro other number item supplied
  by_cases here : other = id
  · subst here
    exact ⟨session, SortedMap.get?_insert_self ..⟩
  · rw [SortedMap.get?_insert_of_ne _ _ here]
    exact known other number item supplied

theorem Handler.session_error {flowId : FlowId} {id : SessionId} {number : Nat} {item : Item}
    {cp : Checkpoint} {reason : Refusal} (h : session flowId id number item cp = .error reason)
    {s : Session} (found : cp.sessions.get? id = some s) (isOpen : s.isOpen) : s.hasSeen number := by
  simp only [session, found, isOpen, Bool.not_true, Bool.false_eq_true, if_false] at h
  by_contra unseen
  rw [if_neg unseen] at h
  cases h

theorem Plan.Refuses.seen {settings : Settings} {flowId : FlowId} {arrival : Arrival} {cp : Checkpoint}
    {reason : Refusal} (refuses : Refuses settings (arrival.event flowId) (some cp) reason)
    (lawful : cp.Lawful serializer) (rests : cp.Rests) {s : Session}
    (found : cp.sessions.get? arrival.session = some s) (isOpen : s.isOpen) :
    s.hasSeen arrival.number := by
  have seen (finished : cp.waitingFor = .nothing) : s.hasSeen arrival.number := by
    rw [(lawful.finished finished).2 _ s found] at isOpen
    cases isOpen
  rcases refuses with ⟨_, same, terminal⟩ | refused
  · cases same
    refine seen (lawful.finished_iff.2 ?_)
    cases status : cp.status <;> simp [Checkpoint.isTerminal, status, Status.isTerminal] at terminal ⊢
  · rcases rests.listens with finished | ⟨awaited, deadline, wait, _⟩
    · exact seen finished
    · simp only [Handler.prepare, Arrival.event, Option.map_some, wait, Handler.accepts, if_true,
        Handler.preprocess] at refused
      cases result : Handler.session flowId arrival.session arrival.number arrival.item cp with
      | error refusal => exact Handler.session_error result found isOpen
      | ok prepared =>
          rw [result] at refused
          cases refused

section Arrivals

variable (owner name flow serializer) in
/-- A checkpoint of a flow while items of a supply come in: it rests, and its open sessions keep those
that have come in and are still to be consumed. -/
structure Checkpoint.Hearing (initial : SortedMap SessionId Session) (arrivals came : List Arrival)
    (cp : Checkpoint) : Prop where
  owned : cp.owner = owner
  named : cp.flowName = name
  rests : cp.Rests
  within : Within (Supply.of initial arrivals) cp.sessions
  known : (Supply.of initial arrivals).Known cp.sessions
  covers : Covers (Supply.of initial came) cp.sessions

variable {initial : SortedMap SessionId Session} {arrivals came : List Arrival} {arrival : Arrival}
  {site after : Site (σ × List Call) Store (List Record)} {settings : Settings} {calls : List Call}
  {id : FlowId} {cp : Checkpoint}

theorem Supply.of_mono (fewer : ∀ a ∈ came, a ∈ arrivals) {session : SessionId} {number : Nat}
    {item : Item} (supplied : of initial came session number item) :
    of initial arrivals session number item :=
  supplied.imp_right fun ⟨free, arrives⟩ => ⟨free, fewer _ arrives⟩

theorem Supply.of_snoc (fewer : ∀ a ∈ came, a ∈ arrivals) (arrives : arrival ∈ arrivals) :
    ∀ session number item, Supply.of initial (came ++ [arrival]) session number item →
      Supply.of initial arrivals session number item := by
  exact fun _ _ _ => Supply.of_mono
    (List.forall_mem_append.2 ⟨fewer, List.forall_mem_singleton.2 arrives⟩)

namespace Checkpoint.Hearing

theorem keep (hearing : cp.Hearing owner name initial arrivals came)
    (single : (Supply.of initial arrivals).Single) (fewer : ∀ a ∈ came, a ∈ arrivals)
    (arrives : arrival ∈ arrivals) {session : Session}
    (found : cp.sessions.get? arrival.session = some session) (isOpen : session.isOpen)
    (unseen : session.hasSeen arrival.number = false) {kept : Checkpoint}
    (same : kept = Handler.keep cp arrival.session session arrival.number arrival.item) :
    kept.outline = cp.outline ∧ kept.Listens ∧ Within (Supply.of initial arrivals) kept.sessions ∧
      (Supply.of initial arrivals).Known kept.sessions ∧
      Covers (Supply.of initial (came ++ [arrival])) kept.sessions := by
  subst same
  have supplied := hearing.covers.supplied found isOpen unseen arrives
  refine ⟨?_, hearing.rests.listens, hearing.within.buffer supplied found, hearing.known.buffer _ _,
    hearing.covers.buffer single (Supply.of_snoc fewer arrives) supplied found⟩
  have outlines : Checkpoint.outlines (cp.sessions.insert arrival.session
      (session.buffer arrival.number arrival.item)) = Checkpoint.outlines cp.sessions :=
    outlines_insert_same found rfl
  rw [Handler.keep, putSession, outline, outlines]
  rfl

theorem stamp (hearing : cp.Hearing owner name initial arrivals came) (version : Nat)
    (updatedAt : Timestamp) :
    Hearing owner name initial arrivals came { cp with version, updatedAt } :=
  ⟨hearing.owned, hearing.named, hearing.rests.stamp _ _, hearing.within, hearing.known, hearing.covers⟩

/-- Once all that is supplied has come in, a flow that rests has come to its end. -/
theorem spent (hearing : cp.Hearing owner name initial arrivals came)
    (all : ∀ a ∈ arrivals, a ∈ came) : Spent (Supply.of initial arrivals) cp.outline :=
  fun _ same within => unready_of_covers same within
    (fun session s number item found isOpen ahead supplied =>
      hearing.covers session s number item found isOpen ahead (Supply.of_mono all supplied))
    hearing.rests.unready

end Checkpoint.Hearing

/-- A conversational flow takes up its conversation where an arrival ends its wait. -/
theorem Prepared.Turns.converses (conversational : flow.Conversational)
    (single : (Supply.of initial arrivals).Single)
    (untimed : settings.config.suspensionTimeout = none) (fewer : ∀ a ∈ came, a ∈ arrivals)
    (arrives : arrival ∈ arrivals) (hearing : cp.Hearing owner name initial arrivals came)
    {prepared : Prepared} {draft : Draft}
    (prepares : Handler.Prepares id settings.config settings.now (arrival.event id).payload (some cp)
      prepared)
    (turns : prepared.Turns (Code.Gives owner name flow serializer) settings calls (some draft)) :
    draft.checkpoint.Hearing owner name initial arrivals (came ++ [arrival]) ∧ ∃ sent,
      Converses flow serializer (Supply.of initial arrivals) cp.outline calls sent
        draft.checkpoint.outline ∧ draft.items = sent := by
  have same := turns.sameFlow
  have owned := (prepares.keeps.1.owner).trans hearing.owned
  have named := (prepares.keeps.1.flowName).trans hearing.named
  cases prepares with
  | kept found isOpen unseen unready =>
      obtain ⟨outline, listens, within, known, covers⟩ :=
        hearing.keep single fewer arrives found isOpen unseen rfl
      generalize left : some draft = ended at turns
      cases turns with
      | skipped =>
          cases left
          refine ⟨⟨owned, named, ⟨listens, unready⟩, within, known, covers⟩, [], ?_, rfl⟩
          rw [outline]
          exact .rest
      | stopped => cases left
      | unregistered starts => cases starts
      | ran enters => cases enters
  | answered found isOpen unseen ready =>
      obtain ⟨outline, listens, within, known, covers⟩ :=
        hearing.keep single fewer arrives found isOpen unseen rfl
      generalize left : some draft = ended at turns
      cases turns with
      | skipped skips => cases skips
      | stopped => cases left
      | unregistered starts => cases starts
      | @ran _ code _ _ enters gives turns =>
          subst left
          cases enters
          obtain ⟨rfl, registers⟩ := gives
          have registered := (congrArg code.registry.get? named).trans (registers owned)
          have rests := turns.rests conversational registered
          obtain ⟨⟨sent, converses, items⟩, drains⟩ :=
            turns.converses conversational untimed registered listens within ready
          have knows : (Supply.of initial (came ++ [arrival])).Known _ := fun _ _ _ supplied =>
            known _ _ _ (Supply.of_snoc fewer arrives _ _ _ supplied)
          rw [outline] at converses
          exact ⟨⟨same.owner.trans owned, same.flowName.trans named, rests, drains.within within,
            drains.known known, drains.covers knows covers⟩, sent, converses, items⟩

theorem Services.Hears.converses {result : Except Stop ProcessingOutcome}
    (conversational : flow.Conversational) (single : (Supply.of initial arrivals).Single)
    (untimed : settings.config.suspensionTimeout = none) (fewer : ∀ a ∈ came, a ∈ arrivals)
    (arrives : arrival ∈ arrivals) (found : site.stored.get? id = some cp)
    (lawful : cp.Lawful serializer) (hearing : cp.Hearing owner name initial arrivals came)
    (hears : Services.Hears .collecting (Code.Gives owner name flow serializer) settings
      (arrival.event id) site calls result after) (completes : ∃ outcome, result = .ok outcome) :
    ∃ next sent, after.stored.get? id = some next ∧
      next.Hearing owner name initial arrivals (came ++ [arrival]) ∧
      Converses flow serializer (Supply.of initial arrivals) cp.outline calls sent next.outline ∧
      after.published.filter Record.isItem = site.published.filter Record.isItem ++ sent := by
  have found : site.stored.get? (arrival.event id).flowId = some cp := found
  cases hears with
  | broken | stopped =>
      obtain ⟨_, impossible⟩ := completes
      cases impossible
  | discarded refuses stored published =>
      rw [found] at refuses
      refine ⟨cp, [], by rw [stored]; exact found, { hearing with covers := ?_ }, .rest, ?_⟩
      · exact hearing.covers.seen single hearing.within (Supply.of_snoc fewer arrives)
          fun s known opened => refuses.seen lawful hearing.rests known opened
      · rw [published, List.append_nil]
  | @committed prepared _ draft _ _ live prepares turns stored published =>
      rw [found] at prepares
      obtain ⟨hearing, sent, converses, items⟩ := turns.converses conversational single untimed fewer
        arrives hearing (Handler.prepare_prepares prepares)
      refine ⟨_, sent, ?_, hearing.stamp (site.stored.version id + 1) settings.now, converses, ?_⟩
      · rw [stored]
        exact SortedMap.get?_insert_self ..
      · have listed : after.published = site.published ++ draft.records := by
          rw [published]
          split
          next empty => rw [List.isEmpty_iff.1 empty, List.append_nil]
          next => rfl
        rw [listed, List.filter_append, ← items]
        rfl

namespace Services

/-- Arrivals are handled for a flow one by one. -/
def deliveries (id : FlowId) (arrivals : List (Settings × Arrival)) : List Moment :=
  arrivals.map fun (settings, arrival) => .event settings (arrival.event id)

theorem run_converses (conversational : flow.Conversational)
    (conforms : recipe.Conforms (Code.Gives owner name flow serializer) serializer)
    (single : (Supply.of initial arrivals).Single) (rest : List (Settings × Arrival))
    (untimed : ∀ x ∈ rest, x.1.config.suspensionTimeout = none) (fewer : ∀ a ∈ came, a ∈ arrivals)
    (arrives : ∀ x ∈ rest, x.2 ∈ arrivals)
    (watched : site.Watched recipe (Code.Gives owner name flow serializer) serializer)
    (found : site.stored.get? id = some cp) (hearing : cp.Hearing owner name initial arrivals came)
    (completes : ∀ result ∈ (Services.run ⟨Store.inMemory, .collecting⟩ (deliveries id rest) site).1,
      ∃ outcome, result = some (.ok outcome)) :
    let run := Services.run ⟨Store.inMemory, .collecting⟩ (deliveries id rest) site
    ∃ last calls sent, run.2.stored.get? id = some last ∧
      last.Hearing owner name initial arrivals (came ++ rest.map Prod.snd) ∧
      run.2.calls = site.calls ++ calls ∧
      Converses flow serializer (Supply.of initial arrivals) cp.outline calls sent last.outline ∧
      run.2.published.filter Record.isItem = site.published.filter Record.isItem ++ sent := by
  induction rest generalizing site cp came with
  | nil =>
      refine ⟨cp, [], [], found, ?_, (List.append_nil _).symm, .rest, (List.append_nil _).symm⟩
      rw [List.map_nil, List.append_nil]
      exact hearing
  | cons head rest ih =>
      obtain ⟨settings, arrival⟩ := head
      obtain ⟨calls, grew, hears⟩ :=
        handle_hears .collecting conforms watched settings (arrival.event id)
      have completed := completes _ List.mem_cons_self
      have fewer' : ∀ a ∈ came ++ [arrival], a ∈ arrivals :=
        List.forall_mem_append.2 ⟨fewer, List.forall_mem_singleton.2 (arrives _ List.mem_cons_self)⟩
      have watched' := live_watched .collecting conforms watched (.event settings (arrival.event id))
      obtain ⟨next, sent, found', hearing', converses, published⟩ := hears.converses conversational
        single (untimed _ List.mem_cons_self) fewer (arrives _ List.mem_cons_self) found
        (watched.bare.lawful id cp found) hearing
        (by obtain ⟨outcome, completed⟩ := completed; exact ⟨outcome, Option.some.inj completed⟩)
      obtain ⟨last, calls', sent', found, hearing, grew', converses', published'⟩ := ih
        (fun x listed => untimed x (List.mem_cons_of_mem _ listed)) fewer'
        (fun x listed => arrives x (List.mem_cons_of_mem _ listed)) watched' found' hearing'
        (fun result listed => completes result (List.mem_cons_of_mem _ listed))
      refine ⟨last, calls ++ calls', sent ++ sent', found, ?_, ?_, converses.trans converses', ?_⟩
      · rw [List.map_cons, List.append_cons]
        exact hearing
      · rw [← List.append_assoc, ← grew]
        exact grew'
      · rw [← List.append_assoc, ← published]
        exact published'

/-- The order in which items arrive makes no difference to a conversational flow, whatever happened
before, and whether or not what was published before was taken over. -/
theorem order_independent (recipe : Recipe σ) (serializer : FiberSerializer)
    (faithful : serializer.Faithful)
    (serializes : ∀ number owner exec, recipe number owner = .ok exec → exec.serializer = serializer)
    (publisher : Publisher (List Record)) (capacity ttl : Nat) (world : σ) (published : List Record)
    (moments : List Moment) (id : FlowId) (cp : Checkpoint) (flow : Flow σ)
    (arrivals arrivals' : List (Settings × Arrival)) :
    let services : Services Store (List Record) := ⟨Store.inMemory, .collecting⟩
    let before := (Services.run ⟨Store.inMemory, publisher⟩ moments
      (.launch recipe.watched (.new capacity ttl) (world, []) {} published)).2
    let run := services.run (deliveries id arrivals) before
    let run' := services.run (deliveries id arrivals') before
    before.stored.get? id = some cp →
      (∀ number exec, recipe number cp.owner = .ok exec →
        exec.registry.get? cp.flowName = some flow) →
      flow.Conversational →
      (arrivals'.map Prod.snd).Perm (arrivals.map Prod.snd) →
      (arrivals.map fun x => (x.2.session, x.2.number)).Nodup →
      (∀ x ∈ arrivals, cp.sessions.contains x.2.session) →
      (∀ x ∈ arrivals ++ arrivals', x.1.config.suspensionTimeout = none) →
      (∀ result ∈ run.1 ++ run'.1, ∃ outcome, result = some (.ok outcome)) →
      ∃ calls calls' last last',
        run.2.calls = before.calls ++ calls ∧ run'.2.calls = before.calls ++ calls' ∧
          calls'.map Call.undated = calls.map Call.undated ∧
          run'.2.published.filter Record.isItem = run.2.published.filter Record.isItem ∧
          run.2.stored.get? id = some last ∧ run'.2.stored.get? id = some last' ∧
          last'.status = last.status ∧ last'.waitingFor = last.waitingFor ∧
          last'.result = last.result ∧ last'.continuation = last.continuation := by
  intro services before run run' found gives conversational perm once known untimed completes
  have conforms : recipe.Conforms (Code.Gives cp.owner cp.flowName flow serializer) serializer := by
    refine ⟨fun number owner exec made => ⟨serializes number owner exec made, fun same => ?_⟩,
      fun owner code gives => gives.1, faithful⟩
    subst same
    exact gives number exec made
  have start := Site.launch_watched conforms capacity ttl world published
  have watched : before.Watched recipe (Code.Gives cp.owner cp.flowName flow serializer) serializer :=
    run_watched publisher conforms start moments
  have rests : before.stored.RestsAt cp.owner cp.flowName :=
    run_rests conversational conforms start (fun _ _ impossible => by cases impossible) moments
  have single : (Supply.of cp.sessions (arrivals.map Prod.snd)).Single :=
    Supply.single_of (by rw [List.map_map]; exact once)
  have knows : (Supply.of cp.sessions (arrivals.map Prod.snd)).Known cp.sessions :=
    Supply.known_of (List.forall_mem_map.2 known)
  have hearing : cp.Hearing cp.owner cp.flowName cp.sessions (arrivals.map Prod.snd) [] :=
    ⟨rfl, rfl, rests id cp found rfl rfl, Supply.within_of _ _, knows, Supply.covers_of _⟩
  obtain ⟨last, calls, sent, stored, heard, grew, converses, said⟩ :=
    run_converses conversational conforms single arrivals
      (fun x listed => untimed x (List.mem_append_left _ listed)) (List.forall_mem_nil _)
      (fun x => List.mem_map_of_mem) watched found hearing
      (fun result listed => completes result (List.mem_append_left _ listed))
  obtain ⟨last', calls', sent', stored', heard', grew', converses', said'⟩ :=
    run_converses conversational conforms single arrivals'
      (fun x listed => untimed x (List.mem_append_right _ listed)) (List.forall_mem_nil _)
      (fun x listed => perm.mem_iff.1 (List.mem_map_of_mem listed)) watched found hearing
      (fun result listed => completes result (List.mem_append_right _ listed))
  obtain ⟨same, rfl, outline⟩ := converses.confluent conversational single converses'
    (heard.spent fun _ listed => listed) (heard'.spent fun _ => perm.mem_iff.2)
  refine ⟨calls, calls', last, last', grew, grew', same, said'.trans said.symm, stored, stored', ?_⟩
  exact ⟨congrArg (·.status) outline, congrArg (·.waitingFor) outline, congrArg (·.result) outline,
    congrArg (·.continuation) outline⟩

end Services

end Arrivals

namespace Samples.Echo

/-- The payload of an item and the close that follows it. -/
def farewell : List (Settings × Arrival) :=
  [(settings, ⟨session, 1, .data [7]⟩), (settings, ⟨session, 2, .close⟩)]

/-- An echo waits for its item. -/
def listening : Site (Unit × List Call) Store (List Record) :=
  (Services.run ⟨Store.inMemory, .collecting⟩ [.event settings begin]
    (.launch (Recipe.watched execution) (.new 1 1000) ((), []) {} [])).2

/-- What some arrivals come to for the echo. -/
def hears (arrivals : List (Settings × Arrival)) :
    List (Option (Except Stop ProcessingOutcome)) × Site (Unit × List Call) Store (List Record) :=
  Services.run ⟨Store.inMemory, .collecting⟩ (Services.deliveries Echo.flow arrivals) listening

end Samples.Echo

open Samples in
/-- An echo ends in the same way whether it hears of the end of its session before or after its
item. -/
theorem Services.order_independent_echo : ∃ last last',
    (Echo.hears Echo.farewell).2.stored.get? Echo.flow = some last ∧
      (Echo.hears Echo.farewell.reverse).2.stored.get? Echo.flow = some last' ∧
      last.result = some [7] ∧ last'.result = last.result ∧ last'.status = last.status := by
  have waits : (Echo.listening.stored.get? Echo.flow).isSome := by decide +kernel
  have known : (Echo.listening.stored.get? Echo.flow).any fun cp =>
      cp.sessions.contains Echo.session := by decide +kernel
  have named : (Echo.listening.stored.get? Echo.flow).map (·.flowName) = some "echo" := by
    decide +kernel
  have answered : ((Echo.hears Echo.farewell).2.stored.get? Echo.flow).map (·.result) =
      some (some [7]) := by decide +kernel
  have completes : ∀ result ∈ (Echo.hears Echo.farewell).1 ++ (Echo.hears Echo.farewell.reverse).1,
      ∃ outcome, result = some (.ok outcome) := by
    have all : ((Echo.hears Echo.farewell).1 ++ (Echo.hears Echo.farewell.reverse).1).all
        (·.any Except.isOk) := by decide +kernel
    intro result member
    obtain ⟨ended, rfl, completed⟩ :=
      (Option.any_eq_true _ _).1 (List.all_eq_true.1 all result member)
    cases ended with
    | ok outcome => exact ⟨outcome, rfl⟩
    | error => cases completed
  obtain ⟨cp, found⟩ := Option.isSome_iff_exists.1 waits
  rw [found] at known named
  have listed : ∀ x ∈ Echo.farewell, x.2.session = Echo.session ∧ x.1 = Echo.settings := by
    simp [Echo.farewell]
  have gives : ∀ number exec, Echo.execution number cp.owner = .ok exec →
      exec.registry.get? cp.flowName = some echo := by
    rintro number exec ⟨⟩
    rw [show cp.flowName = "echo" from Option.some.inj named]
    rfl
  have knows : ∀ x ∈ Echo.farewell, cp.sessions.contains x.2.session := by
    intro x member
    rw [(listed x member).1]
    exact known
  have untimed : ∀ x ∈ Echo.farewell ++ Echo.farewell.reverse,
      x.1.config.suspensionTimeout = none := by
    intro x member
    have member : x ∈ Echo.farewell := by simpa using member
    rw [(listed x member).2]
    rfl
  unfold Echo.hears Echo.listening at *
  -- The arguments are given in steps: matched at once, the runs would be evaluated.
  have ends := order_independent Echo.execution .json FiberSerializer.json_faithful
    Echo.execution_serializer .collecting 1 1000 () [] [.event Echo.settings Echo.begin] Echo.flow cp echo
    Echo.farewell Echo.farewell.reverse
  have ends := ends found gives Echo.conversational ((List.reverse_perm _).map _) (by decide) knows
    untimed
  have ends := ends completes
  obtain ⟨calls, calls', last, last', _, _, _, _, stored, stored', status, _, result, _⟩ := ends
  rw [stored] at answered
  exact ⟨last, last', stored, stored', Option.some.inj answered, result, status⟩

end DurableFlow
