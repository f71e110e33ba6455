import DurableFlow.Proofs.Calls
import DurableFlow.Samples.Minutes

/-! # The states of a fiber

A fiber goes from one state to another only in its calls, and every call ends in one of the ways of
`Fiber.Used`. From that alone follows what a fiber holds after any calls: it is parked just while it is
suspended, and on what the continuation says that it was restored from or has returned last,
`Fiber.Handle.Sound`.
-/

namespace DurableFlow

open Samples

variable {σ : Type}

namespace Fiber

/-- What a fiber is called to do. -/
inductive Ask where
  | start (args : Bytes)
  | resume (value : Resumed)
  deriving DecidableEq

namespace Ask

/-- The state in which a fiber can do as it is asked. -/
def source : Ask → FiberState
  | .start _ => .created
  | .resume _ => .suspended

def name : Ask → String
  | .start _ => "start"
  | .resume _ => "resume"

theorem source_ne (ask : Ask) {state : FiberState} (done : state = .completed ∨ state = .failed) :
    state ≠ ask.source := by
  rcases done with rfl | rfl <;> cases ask <;> exact nofun

end Ask

/-- A call of a fiber, with everything that it is given. -/
structure Use (σ : Type) where
  ask : Ask
  exec : ExecutionContext σ
  context : Context
  world : σ

def use (fiber : Fiber σ) (use : Use σ) : FiberRun σ :=
  match use.ask with
  | .start args => fiber.start use.exec args use.context use.world
  | .resume value => fiber.resume use.exec value use.context use.world

/-- The same fiber, whose logic writes down when it is called. -/
def watched (fiber : Fiber σ) : Fiber (σ × List Call) :=
  ⟨fiber.flowId, fiber.flowName, fiber.logic.watched, fiber.state, fiber.parked⟩

def Use.watched (use : Use σ) : Use (σ × List Call) :=
  ⟨use.ask, use.exec.watched, use.context, (use.world, [])⟩

/-- The calls of flow logic in a call of a fiber. -/
def calls (fiber : Fiber σ) (use : Use σ) : List Call := (fiber.watched.use use.watched).world.2

/-- The ways in which a fiber comes to rest after its logic was run. -/
inductive Settled (exec : ExecutionContext σ) (fiber : Fiber σ) :
    Except FiberError FiberOutcome → Fiber σ → Prop where
  | failed (error : FlowError) : Settled exec fiber (.ok (.failed error)) { fiber with state := .failed }
  | completed (output : Bytes) :
      Settled exec fiber (.ok (.completed output)) { fiber with state := .completed }
  | unwritable (reason : String) :
      Settled exec fiber (.error (.encode fiber.flowId reason)) { fiber with state := .failed }
  | suspended {request : Request} {state continuation : Bytes}
      (written : exec.serializer.serialize ⟨fiber.flowId, fiber.flowName, request.expects, state⟩ =
        .ok continuation) :
      Settled exec fiber (.ok (.suspended request continuation)) (fiber.park request.expects state)

theorem settle_settled (exec : ExecutionContext σ) (fiber : Fiber σ) (step : Except Halt RawStep) :
    Settled exec fiber (fiber.settle exec step).1 (fiber.settle exec step).2 := by
  rcases step with halt | ⟨state, request⟩ | output
  · exact .failed _
  · simp only [settle]
    split
    · exact .unwritable _
    next written => exact .suspended written
  · exact .completed _

/-- The logic of a fiber can be entered as it is asked, with an input. -/
inductive Admits (fiber : Fiber σ) : Ask → Call.Input → Prop where
  | start (created : fiber.state = .created) (args : Bytes) : Admits fiber (.start args) (.start args)
  | resume {value : Resumed} {state : Bytes} {logic : Resumed → Logic σ RawStep}
      (suspended : fiber.state = .suspended) (holds : fiber.parked = some ⟨value.kind, state⟩)
      (decodes : fiber.logic.resume state = .ok logic) :
      Admits fiber (.resume value) (.resume state value)

/-- The ways in which a call of a fiber ends, with the calls of its logic. -/
inductive Used (fiber : Fiber σ) (use : Use σ) : FiberRun σ → List Call → Prop where
  | refused (elsewhere : fiber.state ≠ use.ask.source) :
      Used fiber use ⟨.error (.invalidState fiber.flowId use.ask.name fiber.state), fiber, use.context,
        use.world⟩ []
  | lost {value : Resumed} (asked : use.ask = .resume value) (suspended : fiber.state = .suspended)
      (missing : fiber.parked = none) :
      Used fiber use ⟨.error (.missingContinuation fiber.flowId), fiber, use.context, use.world⟩ []
  | mismatched {parked : Parked} {value : Resumed} (asked : use.ask = .resume value)
      (suspended : fiber.state = .suspended)
      (holds : fiber.parked = some parked) (differs : value.kind ≠ parked.kind) :
      Used fiber use ⟨.ok (.failed (.resumeMismatch parked.kind.text value.kind.text)),
        { fiber with state := .failed, parked := none }, use.context, use.world⟩ []
  | undecodable {parked : Parked} {value : Resumed} {reason : String} (asked : use.ask = .resume value)
      (suspended : fiber.state = .suspended)
      (holds : fiber.parked = some parked) (fits : value.kind = parked.kind)
      (unread : fiber.logic.resume parked.state = .error reason) :
      Used fiber use ⟨.error (.decode fiber.flowId reason),
        { fiber with state := .failed, parked := none }, use.context, use.world⟩ []
  | started {args : Bytes} {run : FiberRun σ} {result : Except Halt RawStep}
      (asked : use.ask = .start args) (created : fiber.state = .created)
      (left : Settled use.exec { fiber with state := .running } run.result run.fiber) :
      Used fiber use run [⟨.start args, use.context, result⟩]
  | resumed {parked : Parked} {value : Resumed} {logic : Resumed → Logic σ RawStep} {run : FiberRun σ}
      {result : Except Halt RawStep} (asked : use.ask = .resume value)
      (suspended : fiber.state = .suspended) (holds : fiber.parked = some parked)
      (fits : value.kind = parked.kind) (decodes : fiber.logic.resume parked.state = .ok logic)
      (left : Settled use.exec { fiber with state := .running, parked := none } run.result run.fiber) :
      Used fiber use run [⟨.resume parked.state value, use.context, result⟩]

/-- A call of a fiber as it is when the fiber is watched. -/
def watchedRun (run : FiberRun σ) (calls : List Call) : FiberRun (σ × List Call) :=
  ⟨run.result, run.fiber.watched, run.context, run.world, calls⟩

theorem settle_watched (exec : ExecutionContext σ) (fiber : Fiber σ) (step : Except Halt RawStep) :
    fiber.watched.settle exec.watched step =
      ((fiber.settle exec step).1, (fiber.settle exec step).2.watched) := by
  rcases step with halt | ⟨state, request⟩ | output
  · rfl
  · simp only [settle, ExecutionContext.watched, watched]
    cases exec.serializer.serialize ⟨fiber.flowId, fiber.flowName, request.expects, state⟩ <;> rfl
  · rfl

theorem enter_watched (exec : ExecutionContext σ) (fiber : Fiber σ) (input : Call.Input)
    (logic : Logic σ RawStep) (ctx : Context) (world : σ) :
    enter exec.watched fiber.watched (logic.watched input) ctx (world, []) =
      watchedRun (enter exec fiber logic ctx world) [⟨input, ctx, (logic.run.run (ctx, world)).1⟩] := by
  simp only [enter, Logic.run_watched, settle_watched, List.nil_append]
  rfl

theorem enter_settled (exec : ExecutionContext σ) (fiber : Fiber σ) (logic : Logic σ RawStep)
    (ctx : Context) (world : σ) : Settled exec fiber (enter exec fiber logic ctx world).result
      (enter exec fiber logic ctx world).fiber :=
  settle_settled exec fiber _

section Calls

variable (fiber : Fiber σ) {exec : ExecutionContext σ} {args : Bytes} {value : Resumed} {parked : Parked}
  {ctx : Context} {world : σ}

theorem start_of_ne (elsewhere : fiber.state ≠ .created) : fiber.start exec args ctx world =
    ⟨.error (.invalidState fiber.flowId "start" fiber.state), fiber, ctx, world⟩ :=
  if_pos elsewhere

theorem start_of_created (created : fiber.state = .created) : fiber.start exec args ctx world =
    enter exec { fiber with state := .running } (fiber.logic.start args) ctx world :=
  if_neg (not_not_intro created)

theorem resume_of_ne (elsewhere : fiber.state ≠ .suspended) : fiber.resume exec value ctx world =
    ⟨.error (.invalidState fiber.flowId "resume" fiber.state), fiber, ctx, world⟩ :=
  if_pos elsewhere

theorem resume_of_none (suspended : fiber.state = .suspended) (missing : fiber.parked = none) :
    fiber.resume exec value ctx world =
      ⟨.error (.missingContinuation fiber.flowId), fiber, ctx, world⟩ := by
  simp only [resume, suspended, missing, ne_eq, not_true_eq_false, if_false]

theorem resume_of_differs (suspended : fiber.state = .suspended) (holds : fiber.parked = some parked)
    (differs : value.kind ≠ parked.kind) : fiber.resume exec value ctx world =
      ⟨.ok (.failed (.resumeMismatch parked.kind.text value.kind.text)),
        { fiber with state := .failed, parked := none }, ctx, world⟩ := by
  simp only [resume, suspended, holds, differs, ne_eq, not_true_eq_false, not_false_eq_true, if_false,
    if_true]

theorem resume_of_error {reason : String} (suspended : fiber.state = .suspended)
    (holds : fiber.parked = some parked) (fits : value.kind = parked.kind)
    (unread : fiber.logic.resume parked.state = .error reason) : fiber.resume exec value ctx world =
      ⟨.error (.decode fiber.flowId reason), { fiber with state := .failed, parked := none }, ctx,
        world⟩ := by
  simp only [resume, suspended, holds, fits, unread, ne_eq, not_true_eq_false, if_false]

theorem resume_of_ok {logic : Resumed → Logic σ RawStep} (suspended : fiber.state = .suspended)
    (holds : fiber.parked = some parked) (fits : value.kind = parked.kind)
    (decodes : fiber.logic.resume parked.state = .ok logic) : fiber.resume exec value ctx world =
      enter exec { fiber with state := .running, parked := none } (logic value) ctx world := by
  simp only [resume, suspended, holds, fits, decodes, ne_eq, not_true_eq_false, if_false]

end Calls

/-- Watching a fiber makes no difference to a call, which ends in one of the ways that there are. -/
structure Observed (fiber : Fiber σ) (use : Use σ) : Prop where
  used : fiber.Used use (fiber.use use) (fiber.calls use)
  same : fiber.watched.use use.watched = watchedRun (fiber.use use) (fiber.calls use)

theorem Observed.of_eq {fiber : Fiber σ} {use : Use σ} {run : FiberRun σ} {calls : List Call}
    (ran : fiber.use use = run) (heard : fiber.watched.use use.watched = watchedRun run calls)
    (used : fiber.Used use run calls) : fiber.Observed use := by
  have same : fiber.calls use = calls := congrArg (fun run => run.world.2) heard
  exact ⟨by rwa [ran, same], by rw [heard, ran, same]⟩

theorem observed (fiber : Fiber σ) (use : Use σ) : fiber.Observed use := by
  obtain ⟨ask, exec, ctx, world⟩ := use
  cases ask with
  | start args =>
      by_cases created : fiber.state = .created
      · have entered := enter_watched exec { fiber with state := .running } (.start args)
          (fiber.logic.start args) ctx world
        exact .of_eq (start_of_created fiber created)
          ((start_of_created fiber.watched created).trans entered)
          (.started rfl created (enter_settled ..))
      · exact .of_eq (start_of_ne fiber created) (start_of_ne fiber.watched created)
          (.refused created)
  | resume value =>
      by_cases suspended : fiber.state = .suspended
      · cases holds : fiber.parked with
        | none =>
            exact .of_eq (resume_of_none fiber suspended holds)
              (resume_of_none fiber.watched suspended holds) (.lost rfl suspended holds)
        | some parked =>
            by_cases fits : value.kind = parked.kind
            · cases decodes : fiber.logic.resume parked.state with
              | error reason =>
                  have unread : fiber.watched.logic.resume parked.state = .error reason :=
                    congrArg (Except.map _) decodes
                  exact .of_eq (resume_of_error fiber suspended holds fits decodes)
                    (resume_of_error fiber.watched suspended holds fits unread)
                    (.undecodable rfl suspended holds fits decodes)
              | ok logic =>
                  have watched : fiber.watched.logic.resume parked.state =
                      .ok fun value => (logic value).watched (.resume parked.state value) :=
                    congrArg (Except.map _) decodes
                  have entered := enter_watched exec { fiber with state := .running, parked := none }
                    (.resume parked.state value) (logic value) ctx world
                  exact .of_eq (resume_of_ok fiber suspended holds fits decodes)
                    ((resume_of_ok fiber.watched suspended holds fits watched).trans entered)
                    (.resumed rfl suspended holds fits decodes (enter_settled ..))
            · exact .of_eq (resume_of_differs fiber suspended holds fits)
                (resume_of_differs fiber.watched suspended holds fits)
                (.mismatched rfl suspended holds fits)
      · exact .of_eq (resume_of_ne fiber suspended) (resume_of_ne fiber.watched suspended)
          (.refused suspended)

namespace Used

variable {fiber : Fiber σ} {use : Use σ} {run : FiberRun σ} {calls : List Call}

theorem admits (used : fiber.Used use run calls) : ∀ call ∈ calls,
    fiber.Admits use.ask call.input ∧ call.context = use.context := by
  cases used with
  | refused | lost | mismatched | undecodable => simp
  | started asked created left =>
      rw [asked, List.forall_mem_singleton]
      exact ⟨.start created _, rfl⟩
  | resumed asked suspended holds fits decodes left =>
      rw [asked, List.forall_mem_singleton]
      exact ⟨.resume suspended (by rw [holds, fits]) decodes, rfl⟩

theorem entered (used : fiber.Used use run calls) {input : Call.Input}
    (admits : fiber.Admits use.ask input) : ∃ result, calls = [⟨input, use.context, result⟩] := by
  generalize asked : use.ask = ask at admits
  cases admits with
  | start created args =>
      cases used with
      | refused elsewhere =>
          rw [asked] at elsewhere
          exact absurd created elsewhere
      | started asked' => cases asked.symm.trans asked'; exact ⟨_, rfl⟩
      | lost asked' | mismatched asked' | undecodable asked' | resumed asked' =>
          cases asked.symm.trans asked'
  | resume suspended holds decodes =>
      cases used with
      | refused elsewhere =>
          rw [asked] at elsewhere
          exact absurd suspended elsewhere
      | started asked' => cases asked.symm.trans asked'
      | lost asked' _ missing => cases holds.symm.trans missing
      | mismatched asked' _ holds' differs =>
          cases asked.symm.trans asked'
          cases holds.symm.trans holds'
          exact absurd rfl differs
      | undecodable asked' _ holds' _ unread =>
          cases holds.symm.trans holds'
          cases decodes.symm.trans unread
      | resumed asked' _ holds' =>
          cases asked.symm.trans asked'
          cases holds.symm.trans holds'
          exact ⟨_, rfl⟩

theorem of_ne (used : fiber.Used use run calls) (elsewhere : fiber.state ≠ use.ask.source) :
    run = ⟨.error (.invalidState fiber.flowId use.ask.name fiber.state), fiber, use.context,
      use.world⟩ ∧ calls = [] := by
  cases used with
  | refused => exact ⟨rfl, rfl⟩
  | started asked created => rw [asked] at elsewhere; exact absurd created elsewhere
  | lost asked suspended | mismatched asked suspended | undecodable asked suspended
  | resumed asked suspended => rw [asked] at elsewhere; exact absurd suspended elsewhere

end Used

/-- A fiber with the continuation that it was restored from or has returned last, and the context that
read or wrote it. -/
structure Handle (σ : Type) where
  fiber : Fiber σ
  source : Option (ExecutionContext σ × Bytes)

namespace Handle

/-- The ways in which a fiber is made. -/
inductive Made : Handle σ → Prop where
  | created (id : FlowId) (name : String) (logic : Flow σ) : Made ⟨create id name logic, none⟩
  | named {exec : ExecutionContext σ} {id : FlowId} {name : String} {fiber : Fiber σ}
      (found : forFlow exec id name = .ok fiber) : Made ⟨fiber, none⟩
  | restored {exec : ExecutionContext σ} {id : FlowId} {continuation : Bytes} {fiber : Fiber σ}
      (read : restore exec id continuation = .ok fiber) : Made ⟨fiber, some (exec, continuation)⟩

/-- The continuation of a fiber after a call in a context, given that before. -/
def sourceAfter (exec : ExecutionContext σ) (before : Option (ExecutionContext σ × Bytes)) :
    Except FiberError FiberOutcome → Option (ExecutionContext σ × Bytes)
  | .ok (.suspended _ continuation) => some (exec, continuation)
  | _ => before

def next (handle : Handle σ) (use : Use σ) : Handle σ :=
  let run := handle.fiber.use use
  ⟨run.fiber, sourceAfter use.exec handle.source run.result⟩

def run (handle : Handle σ) (uses : List (Use σ)) : Handle σ := uses.foldl next handle

/-- What is parked is what a continuation says, by the context that has read or written it. -/
def Describes (source : ExecutionContext σ × Bytes) (fiber : Fiber σ) (parked : Parked) : Prop :=
  let image : FiberImage := ⟨fiber.flowId, fiber.flowName, parked.kind, parked.state⟩
  source.1.serializer.deserialize source.2 = .ok image ∨
    source.1.serializer.serialize image = .ok source.2

/-- What holds of a fiber between its calls. -/
structure Sound (handle : Handle σ) : Prop where
  parked_iff : handle.fiber.parked.isSome ↔ handle.fiber.state = .suspended
  idle : handle.fiber.state ≠ .running
  described : ∀ parked, handle.fiber.parked = some parked →
    ∃ source, handle.source = some source ∧ Describes source handle.fiber parked

theorem Made.sound {handle : Handle σ} (made : handle.Made) : handle.Sound := by
  have unparked (id : FlowId) (name : String) (logic : Flow σ) : Sound ⟨create id name logic, none⟩ :=
    ⟨by simp [create], by simp [create], nofun⟩
  cases made with
  | created => exact unparked ..
  | named found =>
      unfold forFlow at found
      split at found
      · cases found
        exact unparked ..
      · cases found
  | @restored exec id continuation fiber read =>
      obtain ⟨_, flowId, state, image, read, mine, name, parked⟩ := restore_ok read
      refine ⟨by simp [parked, state], by simp [state], fun held holds => ⟨_, rfl, .inl ?_⟩⟩
      cases parked.symm.trans holds
      rw [read, ← name, flowId, ← mine]

/-- A fiber with no state that is run comes to rest as it should. -/
theorem sound_of_settled {exec : ExecutionContext σ} {fiber after : Fiber σ}
    {result : Except FiberError FiberOutcome} (settled : Settled exec fiber result after)
    (empty : fiber.parked = none) (source : Option (ExecutionContext σ × Bytes)) :
    Sound ⟨after, sourceAfter exec source result⟩ := by
  cases settled with
  | failed | completed | unwritable =>
      exact ⟨by simp [empty], by simp, fun parked holds => by cases empty.symm.trans holds⟩
  | suspended written =>
      refine ⟨by simp [park], by simp [park], fun parked holds => ⟨_, rfl, .inr ?_⟩⟩
      cases holds
      exact written

theorem Sound.next {handle : Handle σ} (sound : handle.Sound) (use : Use σ) : (handle.next use).Sound := by
  have used := (handle.fiber.observed use).used
  simp only [Handle.next]
  generalize handle.fiber.use use = run at used
  generalize handle.fiber.calls use = calls at used
  cases used with
  | refused | lost => exact sound
  | mismatched | undecodable => exact ⟨by simp, by simp, nofun⟩
  | started asked created left =>
      have empty : handle.fiber.parked = none := by
        cases parked : handle.fiber.parked with
        | none => rfl
        | some held =>
            have suspended := sound.parked_iff.mp (by rw [parked]; rfl)
            cases created.symm.trans suspended
      exact sound_of_settled left empty handle.source
  | resumed asked suspended holds fits decodes left => exact sound_of_settled left rfl handle.source

theorem Sound.run {handle : Handle σ} (sound : handle.Sound) (uses : List (Use σ)) :
    (handle.run uses).Sound := by
  induction uses generalizing handle with
  | nil => exact sound
  | cons use rest ih => exact ih (sound.next use)

/-- However a fiber was made and whatever it was called to do: it is parked just while it is suspended, on
what its last continuation says, and never left running. The next call enters its logic only from the start
of a new fiber or with a value that fits what a suspended one waits for. A fiber that is done refuses every
call, and none finds the continuation missing. -/
theorem keeps_to_its_states {handle : Handle σ} (made : handle.Made) (uses : List (Use σ)) (use : Use σ) :
    let fiber := (handle.run uses).fiber
    (handle.run uses).Sound ∧
      ((∀ call ∈ fiber.calls use, fiber.Admits use.ask call.input ∧ call.context = use.context) ∧
        ∀ input, fiber.Admits use.ask input →
          ∃ result, fiber.calls use = [⟨input, use.context, result⟩]) ∧
      (fiber.state = .completed ∨ fiber.state = .failed →
        fiber.use use = ⟨.error (.invalidState fiber.flowId use.ask.name fiber.state), fiber, use.context,
          use.world⟩ ∧ fiber.calls use = []) ∧
      ∀ id, (fiber.use use).result ≠ .error (.missingContinuation id) := by
  intro fiber
  have sound := made.sound.run uses
  have used := (fiber.observed use).used
  refine ⟨sound, ⟨used.admits, fun _ => used.entered⟩,
    fun done => used.of_ne (use.ask.source_ne done), fun id missing => ?_⟩
  generalize fiber.use use = run at used missing
  generalize fiber.calls use = calls at used
  cases used with
  | lost asked suspended nothing =>
      have parked := sound.parked_iff.mpr suspended
      rw [nothing] at parked
      cases parked
  | refused | mismatched | undecodable => cases missing
  | started asked created left | resumed asked suspended holds fits decodes left =>
      rw [missing] at left
      cases left

/-- Minutes that have heard one item are parked on it, and are resumed with it when they hear another. -/
theorem keeps_to_its_states_of_minutes :
    let exec : ExecutionContext Unit := ⟨0, ⟨"O=Alice", "g1"⟩, .ofList [("minutes", minutes)], .json⟩
    let hear (octet : UInt8) : Use Unit := ⟨.resume (Minutes.hears octet), exec, Minutes.context, ()⟩
    let handle : Handle Unit := Handle.run ⟨.create Echo.flow "minutes" minutes, none⟩
      [⟨.start [], exec, Minutes.context, ()⟩, hear 104]
    handle.fiber.parked = some ⟨.messages, [104]⟩ ∧ ∃ result, handle.fiber.calls (hear 105) =
      [⟨.resume [104] (Minutes.hears 105), Minutes.context, result⟩] := by
  intro exec hear handle
  have keeps := keeps_to_its_states (.created Echo.flow "minutes" minutes)
    [⟨.start [], exec, Minutes.context, ()⟩, hear 104] (hear 105)
  have admits : handle.fiber.Admits (hear 105).ask (.resume [104] (Minutes.hears 105)) :=
    .resume rfl rfl rfl
  exact ⟨rfl, keeps.2.1.2 _ admits⟩

end Handle

end Fiber

end DurableFlow
