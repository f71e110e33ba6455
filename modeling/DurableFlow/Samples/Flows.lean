import DurableFlow.Samples.Script

/-! # Sample flows

Small flows that use one feature of the engine each. Their world is a budget of failures, which
they share: a flow that spends one fails for the time being.
-/

namespace DurableFlow.Samples

def sum64 (a b : Nat) : Logic Nat Nat :=
  if a + b ≤ Json.max64 then return a + b else Logic.fail (.failed "overflow")

def onlyNumber (names : TypeNames) (value : Resumed) : Logic Nat Nat := do
  let messages ← Logic.ofFlow value.intoMessages
  Logic.ofFlow (messages.decodeSingle (.nat names.word64 Json.max64))

/-- Suspend on a text that is sent and on its reply. -/
def ask {State Output : Type} (names : TypeNames) (state : State) (id : SessionId)
    (question : String) : Logic Nat (Step State Output) := do
  return .suspend state
    (← Logic.ofFlow ((← Logic.context).sendAndReceive (.text names.text) id question))

/-- Ask a counterparty for a number and finish with its double, or with zero if it takes too long. -/
def ping (names : TypeNames) : Flow Nat :=
  TypedFlow.withCodecs (.identity names.identity) (.unit names.unit)
    (.nat names.word64 Json.max64) {
      start counterparty := do
        let (id, ctx) := (← Logic.context).initiateSession counterparty
        Logic.setContext ctx
        ask names () id "ping"
      resume _ value := do
        match value with
        | .sessionFailed _ .timedOut => return .finish 0
        | _ =>
          let number ← onlyNumber names value
          return .finish (← sum64 number number) }

/-- Wait for the next number of a list of three, and finish with the list. -/
def gatherNext (numbers : List Nat) : Logic Nat (Step (List Nat) (List Nat)) := do
  if numbers.length = 3 then return .finish numbers
  let id ← Script.initiator
  return .suspend numbers (← Logic.ofFlow ((← Logic.context).receive [id]))

/-- Gather three numbers from the session through which the flow was started. -/
def gather (names : TypeNames) : Flow Nat :=
  TypedFlow.withCodecs (.unit names.unit) (.nats names.words Json.max64)
    (.nats names.words Json.max64) {
      start _ := gatherNext []
      resume numbers value := do gatherNext (numbers ++ [← onlyNumber names value]) }

def sleeper (names : TypeNames) : Flow Nat :=
  TypedFlow.withCodecs (.int64 names.int64) (.unit names.unit) (.text names.text) {
    start millis := do return .suspend () (← Logic.ofTime ((← Logic.context).sleep millis))
    resume _ _ := return .finish "awake" }

/-- Fail for as long as there is a failure to spend. -/
def flaky (names : TypeNames) : Flow Nat :=
  TypedFlow.withCodecs (.unit names.unit) (.unit names.unit) (.text names.text) {
    start _ := do
      if ← spend then Logic.fail (.transient "backend busy") else return .finish "done"
    resume _ _ := return .finish "done" }

def panicky (names : TypeNames) : Flow Nat :=
  TypedFlow.withCodecs (.unit names.unit) (.unit names.unit) (.unit names.unit) {
    start _ := Logic.panic (some "flow logic exploded")
    resume _ _ := return .finish () }

/-- Ask for a number of numbers one after another, and finish with their sum. -/
def accumulate (names : TypeNames) : Flow Nat :=
  TypedFlow.withCodecs (.nat names.word32 Json.max32) (.tally names.tally Json.max32 Json.max64)
    (.nat names.word64 Json.max64) {
      start limit := ask names (limit, 0, 0) ⟨"s1"⟩ "first"
      resume := fun (limit, seen, sum) value => do
        let messages ← Logic.ofFlow value.intoMessages
        let number ← Logic.ofFlow (messages.decode (.nat names.word64 Json.max64) ⟨"s1"⟩)
        let sum ← sum64 sum number
        if seen + 1 = limit then return .finish sum
        ask names (limit, seen + 1, sum) ⟨"s1"⟩ "more" }

def countDown (names : TypeNames) : Flow Nat :=
  TypedFlow.withCodecs (.nat names.word32 Json.max32) (.nat names.word32 Json.max32)
    (.text names.text) {
      start required := do
        return .suspend required ((← Logic.context).waitForConfirmations required)
      resume required _ := return .finish ("confirmed " ++ toString required) }

def unwritable : Codec.Relation := [((0, 0), 0)]

def badState (names : TypeNames) : Flow Nat :=
  TypedFlow.withCodecs (.unit names.unit) (.relation names.relation) (.unit names.unit) {
    start _ := do
      let (_, ctx) := (← Logic.context).initiateSession ⟨"O=Bob", "g1"⟩
      Logic.setContext ctx
      return .suspend unwritable ctx.forceCheckpoint
    resume _ _ := return .finish () }

def badOutput (names : TypeNames) : Flow Nat :=
  TypedFlow.withCodecs (.unit names.unit) (.unit names.unit) (.relation names.relation) {
    start _ := return .suspend () (← Logic.context).forceCheckpoint
    resume _ _ := return .finish unwritable }

def registry (names : TypeNames) : Registry Nat := .ofList [
  ("ping", ping names),
  ("gather", gather names),
  ("sleeper", sleeper names),
  ("flaky", flaky names),
  ("panicky", panicky names),
  ("accumulate", accumulate names),
  ("count-down", countDown names),
  ("bad-state", badState names),
  ("bad-output", badOutput names),
  ("script", script names)]

/-- Fibers as JSON, except that none can be written. -/
def refusing : FiberSerializer :=
  { FiberSerializer.json with
    format := "refusing"
    serialize := fun _ => .error "serializer refused" }

end DurableFlow.Samples
