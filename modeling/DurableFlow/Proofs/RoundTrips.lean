import DurableFlow.Proofs.Fields
import DurableFlow.Proofs.Times
import DurableFlow.Wire.Event

/-! # Documents stand for what they were written for

A checkpoint, an event and a record are what is read from their documents. Every reader has one lemma
about the documents that its writer makes. Numbers have to fit the words in which the reader keeps them
(`Checkpoint.Fits` and its like), and the sessions of a checkpoint may be listed in any order.
-/

namespace DurableFlow

@[simp]
theorem FlowId.ofJson?_toJson (id : FlowId) : ofJson? id.toJson = some id := by
  rw [ofJson?, toJson, Json.text?, Option.bind_some, ofText?_text]

@[simp]
theorem SessionId.ofJson?_toJson (id : SessionId) : ofJson? id.toJson = some id := rfl

@[simp]
theorem Timestamp.ofJson?_toJson (t : Timestamp) : ofJson? t.toJson = some t := by
  rw [ofJson?, toJson, Json.text?, Option.bind_some, ofText?_text]

@[simp]
theorem FlowId.readable_toJson (id : FlowId) : id.toJson.readable := rfl

@[simp]
theorem SessionId.readable_toJson (id : SessionId) : id.toJson.readable := rfl

@[simp]
theorem Timestamp.readable_toJson (t : Timestamp) : t.toJson.readable := rfl

@[simp]
theorem Identity.readable_toJson (identity : Identity) : identity.toJson.readable := rfl

@[simp]
theorem InitiatingSession.readable_toJson (session : InitiatingSession) : session.toJson.readable := rfl

@[simp]
theorem Item.readable_toJson (item : Item) : (item.toJson .ofBytes).readable := by
  cases item <;> simp [toJson]

@[simp]
theorem Identity.ofJson?_toJson (identity : Identity) : ofJson? identity.toJson = some identity := by
  have fields : identity.toJson.fields? ["x500_name", "group_id"] =
      some [.given (.text identity.x500Name), .given (.text identity.groupId)] :=
    Json.fields?_object _ rfl (by decide)
  simp [ofJson?, fields]

@[simp]
theorem Status.ofJson?_text (status : Status) (held : Bool) :
    ofJson? held (.text status.text) = some status := by
  cases status <;> rfl

@[simp]
theorem SessionStatus.ofJson?_text (status : SessionStatus) :
    ofJson? (.text status.text) = some status := by
  cases status <;> rfl

@[simp]
theorem SessionFailureReason.ofJson?_word (held : Bool) (reason : SessionFailureReason) :
    ofJson? held (.text reason.word) = some reason := by
  cases reason <;> rfl

@[simp]
theorem Item.ofJson?_toJson (held : Bool) (item : Item) :
    ofJson? held (item.toJson .ofBytes) = some item := by
  cases item with
  | data payload =>
      obtain ⟨parts, fields⟩ := Json.variant_object "data" ["payload"]
        [("payload", .ofBytes payload)] rfl (by decide) (by simp)
      simp [ofJson?, toJson, parts, Json.variant?, fields]
  | close => rfl

namespace Session

/-- The numbers of a session fit the words in which they are kept. -/
structure Fits (session : Session) : Prop where
  nextSend : session.nextSend ≤ Json.max64
  nextReceive : session.nextReceive ≤ Json.max64
  pending : ∀ entry ∈ session.pending.entries, entry.1 ≤ Json.max64

theorem number?_text {n : Nat} (fits : n ≤ Json.max64) : number? (Decimal.text n) = some n := by
  have word : n ≤ Decimal.Numeral.maxWord := fits
  simp [number?, Decimal.ofText_text, Decimal.ofBytes?_digits, Decimal.number?_digits word]

theorem ofJson?_toJson {session : Session} (fits : session.Fits) :
    ofJson? (session.toJson .ofBytes) = some session := by
  have fields : (session.toJson .ofBytes).fields?
      ["counterparty", "status", "next_send_seq", "next_receive_seq", "pending"] = _ :=
    Json.fields?_object _ rfl (by decide)
  have pending : Json.map? number? (Item.ofJson? false) (.object (session.pending.entries.map
      fun e => (Decimal.text e.1, e.2.toJson .ofBytes))) = some session.pending :=
    Json.map?_object (fun number => Decimal.text number) (.refl _)
      (fun e member => number?_text (fits.pending e member)) fun e _ => Item.ofJson?_toJson false e.2
  apply (bind_of_eq fields _).trans
  dsimp only [Json.required_given, Json.Slot.withDefault]
  apply (bind_of_eq session.counterparty.ofJson?_toJson _).trans
  apply (bind_of_eq session.status.ofJson?_text _).trans
  apply (bind_of_eq (Json.nat?_nat fits.nextSend) _).trans
  apply (bind_of_eq (Json.nat?_nat fits.nextReceive) _).trans
  apply (bind_of_eq pending _).trans
  rfl

end Session

namespace Wait

/-- The counts of a wait fit the words in which they are kept. -/
def Fits : Wait → Prop
  | .confirmations required received => required ≤ Json.max32 ∧ received ≤ Json.max32
  | _ => True

theorem ofJson?_toJson {wait : Wait} (fits : wait.Fits) : ofJson? wait.toJson = some wait := by
  cases wait with
  | start => rfl
  | nothing => rfl
  | sessions awaited deadline =>
      obtain ⟨parts, fields⟩ := Json.variant_object "session_data" ["sessions", "deadline"]
        [("sessions", .array (awaited.map SessionId.toJson)),
          ("deadline", .ofOption Timestamp.toJson deadline)] rfl (by decide)
        (by simp [SessionId.toJson, Json.readable_ofOption Timestamp.readable_toJson])
      have ids : Json.list? SessionId.ofJson? (.array (awaited.map SessionId.toJson)) = some awaited :=
        Json.list?_array fun id _ => id.ofJson?_toJson
      have time : Json.Slot.optional Timestamp.ofJson? (.given (.ofOption Timestamp.toJson deadline)) =
          some deadline :=
        Json.optional_ofOption (fun t _ => t.ofJson?_toJson) (by simp [Timestamp.toJson])
      simp [ofJson?, toJson, parts, Json.variant?, fields, ids, time]
  | wakeup due =>
      obtain ⟨parts, fields⟩ := Json.variant_object "wakeup" ["at"] [("at", due.toJson)] rfl
        (by decide) (by simp)
      simp [ofJson?, toJson, parts, Json.variant?, fields]
  | confirmations required received =>
      obtain ⟨parts, fields⟩ := Json.variant_object "confirmations" ["required", "received"]
        [("required", .nat required), ("received", .nat received)] rfl (by decide) (by simp)
      simp [ofJson?, toJson, parts, Json.variant?, fields, Json.nat?_nat fits.1, Json.nat?_nat fits.2]

end Wait

namespace Resumed

/-- The confirmations of a resume value fit the word in which they are kept. -/
def Fits : Resumed → Prop
  | .confirmed confirmations => confirmations ≤ Json.max32
  | _ => True

theorem ofJson?_toJson {value : Resumed} (fits : value.Fits) :
    ofJson? (value.toJson .ofBytes) = some value := by
  cases value with
  | messages received =>
      have read : Json.map? (fun name => some ⟨name.text⟩) Json.bytes? (.object
          (received.entries.map fun e => (e.1.text, .ofBytes e.2))) = some received :=
        Json.map?_object (fun id : SessionId => id.text) (.refl _) (fun _ _ => rfl)
          fun e _ => Json.bytes?_ofBytes e.2
      exact bind_of_eq read _
  | wakeup => rfl
  | confirmed confirmations =>
      have fields : Json.fields? ["confirmations"] (.object [("confirmations", .nat confirmations)]) =
          some [.given (.nat confirmations)] := Json.fields?_object _ rfl (by decide)
      simp [ofJson?, toJson, ofParts?, Json.choice?, Json.namedFields?, fields, Json.nat?_nat fits]
  | sessionFailed id reason =>
      have fields : Json.fields? ["session_id", "reason"]
          (.object [("session_id", id.toJson), ("reason", .text reason.word)]) =
            some [.given id.toJson, .given (.text reason.word)] :=
        Json.fields?_object _ rfl (by decide)
      simp [ofJson?, toJson, ofParts?, Json.choice?, fields]

end Resumed

namespace Checkpoint

/-- The numbers of a checkpoint fit the words in which they are kept. -/
structure Fits (cp : Checkpoint) : Prop where
  waitingFor : cp.waitingFor.Fits
  sessions : ∀ entry ∈ cp.sessions.entries, entry.2.Fits
  retryCount : cp.retryCount ≤ Json.max32
  version : cp.version ≤ Json.max64
  pendingResume : ∀ value ∈ cp.pendingResume, value.Fits

/-- The document of a checkpoint with its sessions listed as given. -/
def toJsonListing (cp : Checkpoint) (sessions : List (SessionId × Session)) : Json :=
  match cp.toJson .ofBytes with
  | .object members => .object (members.map fun (name, value) =>
      if name.text = "sessions" then
        (name, .object (sessions.map fun (id, session) => (id.text, session.toJson .ofBytes)))
      else (name, value))
  | doc => doc

@[simp]
theorem optionalBytes?_ofOption (bytes : Option Bytes) :
    optionalBytes? (.given (.ofOption .ofBytes bytes)) = some bytes := by
  cases bytes with
  | none => rfl
  | some bytes => exact congrArg (Option.map some) (Json.bytes?_ofBytes bytes)

/-- The document that is written is the one that lists the sessions in the order of their map. -/
theorem toJsonListing_entries (cp : Checkpoint) :
    cp.toJsonListing cp.sessions.entries = cp.toJson .ofBytes := by
  simp [toJsonListing, toJson]

theorem ofJson?_toJsonListing {cp : Checkpoint} (fits : cp.Fits)
    {sessions : List (SessionId × Session)} (listed : sessions.Perm cp.sessions.entries) :
    ofJson? (cp.toJsonListing sessions) = some cp := by
  have fields : (cp.toJsonListing sessions).fields? fieldNames = some [
      .given cp.flowId.toJson,
      .given cp.owner.toJson,
      .given (.text cp.flowName),
      .given (.ofOption .ofBytes cp.continuation),
      .given cp.waitingFor.toJson,
      .given (.object (sessions.map fun (id, session) => (id.text, session.toJson .ofBytes))),
      .given (.text cp.status.text),
      .given (.nat cp.retryCount),
      .given (.ofOption .text cp.lastFailureReason),
      .given (.nat cp.version),
      .given (.ofOption .ofBytes cp.startArgs),
      .given (.ofOption (Resumed.toJson .ofBytes) cp.pendingResume),
      .given (.ofOption .ofBytes cp.result),
      .given (.ofOption SessionId.toJson cp.initiatedBy),
      .given cp.createdAt.toJson,
      .given cp.updatedAt.toJson] := Json.fields?_object _ rfl (by decide)
  have sessions : Json.map? (fun name => some ⟨name.text⟩) Session.ofJson? (.object
      (sessions.map fun (id, session) => (id.text, session.toJson .ofBytes))) = some cp.sessions :=
    Json.map?_object (fun id : SessionId => id.text) listed (fun _ _ => rfl) fun e member =>
      Session.ofJson?_toJson (fits.sessions e (listed.mem_iff.mp member))
  have reason : Json.Slot.optional Json.text? (.given (.ofOption .text cp.lastFailureReason)) =
      some cp.lastFailureReason := Json.optional_ofOption (fun _ _ => rfl) nofun
  have resume : Json.Slot.optional Resumed.ofJson?
      (.given (.ofOption (Resumed.toJson .ofBytes) cp.pendingResume)) = some cp.pendingResume :=
    Json.optional_ofOption (fun value held => Resumed.ofJson?_toJson (fits.pendingResume value held))
      fun value => by cases value <;> nofun
  have initiator : Json.Slot.optional SessionId.ofJson?
      (.given (.ofOption SessionId.toJson cp.initiatedBy)) = some cp.initiatedBy :=
    Json.optional_ofOption (fun id _ => id.ofJson?_toJson) nofun
  apply (bind_of_eq fields _).trans
  dsimp only [Json.required_given]
  apply (bind_of_eq cp.flowId.ofJson?_toJson _).trans
  apply (bind_of_eq cp.owner.ofJson?_toJson _).trans
  apply (bind_of_eq rfl _).trans
  apply (bind_of_eq (optionalBytes?_ofOption cp.continuation) _).trans
  apply (bind_of_eq (Wait.ofJson?_toJson fits.waitingFor) _).trans
  apply (bind_of_eq sessions _).trans
  apply (bind_of_eq (cp.status.ofJson?_text false) _).trans
  apply (bind_of_eq (Json.nat?_nat fits.retryCount) _).trans
  apply (bind_of_eq reason _).trans
  apply (bind_of_eq (Json.nat?_nat fits.version) _).trans
  apply (bind_of_eq (optionalBytes?_ofOption cp.startArgs) _).trans
  apply (bind_of_eq resume _).trans
  apply (bind_of_eq (optionalBytes?_ofOption cp.result) _).trans
  apply (bind_of_eq initiator _).trans
  apply (bind_of_eq cp.createdAt.ofJson?_toJson _).trans
  apply (bind_of_eq cp.updatedAt.ofJson?_toJson _).trans
  rfl

end Checkpoint

@[simp]
theorem InitiatingSession.ofJson?_toJson (session : InitiatingSession) :
    ofJson? session.toJson = some session := by
  have fields : session.toJson.fields? ["session_id", "counterparty"] =
      some [.given session.sessionId.toJson, .given session.counterparty.toJson] :=
    Json.fields?_object _ rfl (by decide)
  simp [ofJson?, fields]

theorem StartRequest.ofJson?_toMembers (request : StartRequest) :
    ofJson? (.object request.toMembers) = some request := by
  have fields : (Json.object request.toMembers).fields? ["flow_name", "owner", "args", "initiated_by"] =
      some [.given (.text request.flowName), .given request.owner.toJson, .given (.ofBytes request.args),
        .given (.ofOption InitiatingSession.toJson request.initiatedBy)] :=
    Json.fields?_object _ rfl (by decide)
  have initiator : Json.Slot.optional InitiatingSession.ofJson?
      (.given (.ofOption InitiatingSession.toJson request.initiatedBy)) = some request.initiatedBy :=
    Json.optional_ofOption (fun session _ => session.ofJson?_toJson) nofun
  simp [ofJson?, fields, initiator]

namespace EventPayload

/-- The numbers of an event fit the words in which they are kept. -/
def Fits : EventPayload → Prop
  | .session _ number _ => number ≤ Json.max64
  | .confirmation count => count ≤ Json.max32
  | _ => True

theorem ofJson?_toJson {payload : EventPayload} (fits : payload.Fits) :
    ofJson? payload.toJson = some payload := by
  cases payload with
  | startFlow request =>
      obtain ⟨parts, -⟩ := Json.variant_object "start_flow"
        ["flow_name", "owner", "args", "initiated_by"] request.toMembers rfl (by decide)
        (by simp [StartRequest.toMembers, Json.readable_ofOption InitiatingSession.readable_toJson])
      simp [ofJson?, toJson, parts, Json.variant?, request.ofJson?_toMembers]
  | session id number item =>
      obtain ⟨parts, fields⟩ := Json.variant_object "session"
        ["session_id", "sequence_number", "payload"]
        [("session_id", id.toJson), ("sequence_number", .nat number), ("payload", item.toJson .ofBytes)]
        rfl (by decide) (by simp)
      simp [ofJson?, toJson, parts, Json.variant?, fields, Json.nat?_nat fits]
  | wakeup => rfl
  | confirmation count =>
      obtain ⟨parts, fields⟩ := Json.variant_object "confirmation" ["count"] [("count", .nat count)]
        rfl (by decide) (by simp)
      simp [ofJson?, toJson, parts, Json.variant?, fields, Json.nat?_nat fits]
  | failure reason =>
      obtain ⟨parts, fields⟩ := Json.variant_object "failure" ["reason"] [("reason", .text reason)]
        rfl (by decide) (by simp)
      simp [ofJson?, toJson, parts, Json.variant?, fields]

end EventPayload

theorem Event.ofJson?_toJson {event : Event} (fits : event.payload.Fits) :
    ofJson? event.toJson = some event := by
  have fields : event.toJson.fields? ["flow_id", "payload"] =
      some [.given event.flowId.toJson, .given event.payload.toJson] :=
    Json.fields?_object _ rfl (by decide)
  simp [ofJson?, fields, EventPayload.ofJson?_toJson fits]

namespace Record

/-- The number of a record fits the word in which it is kept. -/
def Fits : Record → Prop
  | .sessionData _ _ _ number _ => number ≤ Json.max64
  | .sessionClose _ _ _ number => number ≤ Json.max64
  | .sessionAck _ _ number => number ≤ Json.max64
  | _ => True

theorem ofJson?_toJson {record : Record} (fits : record.Fits) :
    ofJson? (record.toJson .ofBytes) = some record := by
  cases record with
  | sessionData flowId sessionId counterparty number payload =>
      obtain ⟨parts, fields⟩ := Json.variant_object "session_data"
        ["flow_id", "session_id", "counterparty", "sequence_number", "payload"]
        [("flow_id", flowId.toJson), ("session_id", sessionId.toJson),
          ("counterparty", counterparty.toJson), ("sequence_number", .nat number),
          ("payload", .ofBytes payload)] rfl (by decide) (by simp)
      apply (bind_of_eq parts _).trans
      apply (bind_of_eq rfl _).trans
      apply (bind_of_eq fields _).trans
      simp [Json.nat?_nat fits]
  | sessionClose flowId sessionId counterparty number =>
      obtain ⟨parts, fields⟩ := Json.variant_object "session_close"
        ["flow_id", "session_id", "counterparty", "sequence_number"]
        [("flow_id", flowId.toJson), ("session_id", sessionId.toJson),
          ("counterparty", counterparty.toJson), ("sequence_number", .nat number)]
        rfl (by decide) (by simp)
      apply (bind_of_eq parts _).trans
      apply (bind_of_eq rfl _).trans
      apply (bind_of_eq fields _).trans
      simp [Json.nat?_nat fits]
  | sessionAck flowId sessionId number =>
      obtain ⟨parts, fields⟩ := Json.variant_object "session_ack"
        ["flow_id", "session_id", "sequence_number"]
        [("flow_id", flowId.toJson), ("session_id", sessionId.toJson), ("sequence_number", .nat number)]
        rfl (by decide) (by simp)
      apply (bind_of_eq parts _).trans
      apply (bind_of_eq rfl _).trans
      apply (bind_of_eq fields _).trans
      simp [Json.nat?_nat fits]
  | sessionError flowId sessionId counterparty reason =>
      obtain ⟨parts, fields⟩ := Json.variant_object "session_error"
        ["flow_id", "session_id", "counterparty", "reason"]
        [("flow_id", flowId.toJson), ("session_id", sessionId.toJson),
          ("counterparty", counterparty.toJson), ("reason", .text reason)] rfl (by decide) (by simp)
      apply (bind_of_eq parts _).trans
      apply (bind_of_eq rfl _).trans
      apply (bind_of_eq fields _).trans
      simp
  | scheduleWakeup flowId due =>
      obtain ⟨parts, fields⟩ := Json.variant_object "schedule_wakeup" ["flow_id", "at"]
        [("flow_id", flowId.toJson), ("at", due.toJson)] rfl (by decide) (by simp)
      apply (bind_of_eq parts _).trans
      apply (bind_of_eq rfl _).trans
      apply (bind_of_eq fields _).trans
      simp
  | flowStatus flowId status detail =>
      obtain ⟨parts, fields⟩ := Json.variant_object "flow_status" ["flow_id", "status", "detail"]
        [("flow_id", flowId.toJson), ("status", .text status.text), ("detail", .ofOption .text detail)]
        rfl (by decide) (by simp [Json.readable_ofOption Json.readable_text])
      have detailed : Json.Slot.optional Json.text? (.given (.ofOption .text detail)) = some detail :=
        Json.optional_ofOption (fun _ _ => rfl) nofun
      apply (bind_of_eq parts _).trans
      apply (bind_of_eq rfl _).trans
      apply (bind_of_eq fields _).trans
      simp [detailed]
  | scheduleCleanup flowId expiresAt =>
      obtain ⟨parts, fields⟩ := Json.variant_object "schedule_cleanup" ["flow_id", "expires_at"]
        [("flow_id", flowId.toJson), ("expires_at", expiresAt.toJson)] rfl (by decide) (by simp)
      apply (bind_of_eq parts _).trans
      apply (bind_of_eq rfl _).trans
      apply (bind_of_eq fields _).trans
      simp

end Record

/-- What is written on the wire is read back. -/
theorem reads_what_was_written :
    (∀ cp : Checkpoint, cp.Fits → ∀ sessions, sessions.Perm cp.sessions.entries →
      Checkpoint.ofJson? (cp.toJsonListing sessions) = some cp) ∧
    (∀ event : Event, event.payload.Fits → Event.ofJson? event.toJson = some event) ∧
    (∀ record : Record, record.Fits → Record.ofJson? (record.toJson .ofBytes) = some record) :=
  ⟨fun _ fits _ listed => Checkpoint.ofJson?_toJsonListing fits listed,
    fun _ fits => Event.ofJson?_toJson fits, fun _ fits => Record.ofJson?_toJson fits⟩

/-- A checkpoint of a flow with two sessions. An item on the second one is early. -/
def Samples.twoSessions : Checkpoint :=
  { Checkpoint.new ⟨7⟩ ⟨"O=Alice", "g1"⟩ "echo" .epoch with
    waitingFor := .confirmations 2 1
    sessions := .ofList [(⟨"a"⟩, .new ⟨"O=Bob", "g1"⟩),
      (⟨"b"⟩, (Session.new ⟨"O=Carol", "g1"⟩).buffer 3 (.data [0x31]))]
    version := 4
    pendingResume := some (.sessionFailed ⟨"b"⟩ .timedOut) }

theorem reads_what_was_written_of_two_sessions :
    Checkpoint.ofJson? (Samples.twoSessions.toJsonListing Samples.twoSessions.sessions.entries.reverse) =
      some Samples.twoSessions ∧
    Event.ofJson? (Event.toJson ⟨⟨7⟩, .session ⟨"b"⟩ 3 (.data [0x31])⟩) =
      some ⟨⟨7⟩, .session ⟨"b"⟩ 3 (.data [0x31])⟩ ∧
    Record.ofJson? ((Record.sessionAck ⟨7⟩ ⟨"b"⟩ 3).toJson .ofBytes) =
      some (.sessionAck ⟨7⟩ ⟨"b"⟩ 3) := by
  have fits : Samples.twoSessions.Fits := by
    have sessions : ∀ entry ∈ Samples.twoSessions.sessions.entries, entry.2.nextSend ≤ Json.max64 ∧
        entry.2.nextReceive ≤ Json.max64 ∧
        ∀ item ∈ entry.2.pending.entries, item.1 ≤ Json.max64 := by
      decide
    constructor
    · exact ⟨by decide, by decide⟩
    · intro entry listed
      obtain ⟨nextSend, nextReceive, pending⟩ := sessions entry listed
      exact ⟨nextSend, nextReceive, pending⟩
    · decide
    · decide
    · rintro value ⟨⟩
      trivial
  exact ⟨reads_what_was_written.1 _ fits _ (List.reverse_perm _),
    reads_what_was_written.2.1 ⟨⟨7⟩, .session ⟨"b"⟩ 3 (.data [0x31])⟩ (show 3 ≤ Json.max64 by decide),
    reads_what_was_written.2.2 (.sessionAck ⟨7⟩ ⟨"b"⟩ 3) (show 3 ≤ Json.max64 by decide)⟩

end DurableFlow
