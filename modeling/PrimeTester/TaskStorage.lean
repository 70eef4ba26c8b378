import PrimeTester.Endpoints
import PrimeTester.Lib.Actor

/-!
# The task storage

The actor `TaskStorage` with its five message handlers, and `TaskStorage.actor`, the actor under
Akka's default supervision: a handler that throws is answered by a fresh instance. `SubscribeAck`
and unknown messages are only logged, so they are left out.
-/

namespace PrimeTester

/-- The server-sent event that `broadcast` builds. -/
structure OutboundEvent where
  id : String
  name : String
  data : TaskStatusResource
  mediaType : String
  deriving DecidableEq

structure TaskStorage (B : Type) where
  id : Long
  statuses : HashMap Long Status
  tasks : HashMap Long String
  subscriptions : HashMap Long B

namespace TaskStorage

section
variable {B : Type}

/-- A fresh instance. -/
def fresh : TaskStorage B := ⟨0, .empty, .empty, .empty⟩

/-- The messages of `receive`. -/
inductive Message (B : Type) where
  | newNumber (m : NewNumberCalculationMessage)
  | register (m : RegisterForNotifications B)
  | started (m : CalculationStarted)
  | finished (m : CalculationFinished)
  | getStatus (m : GetTaskStatusMessage)
  deriving DecidableEq

/-- The message in which an event of a worker arrives. -/
def Message.ofEvent : Event → Message B
  | .started m => .started m
  | .finished m => .finished m

/-- What the handlers send: a task to `clusterProxy`, an answer to the sender of the message, an
event to a broadcaster. -/
inductive Output (B : Type) where
  | toClusterProxy (m : TaskIdAssignedMessage)
  | replyAssigned (m : TaskIdAssignedMessage)
  | replyStatus (m : TaskStatusMessage)
  | broadcast (b : B) (event : OutboundEvent)
  deriving DecidableEq

def handleGet (st : TaskStorage B) (message : GetTaskStatusMessage) : TaskStatusMessage :=
  match st.statuses.get message.taskId with
  | some status => ⟨message.taskId, st.tasks.get message.taskId, some status⟩
  | none => TaskStatusMessage.NOT_FOUND

/-- The event of `broadcast` for a status that is not `null`. -/
def event (taskId : Long) (status : Status) : OutboundEvent where
  id := taskId.valueOf
  name := status.toString
  data := ⟨taskId, none, .ofActor status⟩
  mediaType := "application/json"

/-- `status.toString()` throws for `null`, before anything is sent. -/
def broadcast (st : TaskStorage B) (taskId : Long) (status : Option Status) :
    Except Fault (List (Output B)) := do
  let name ← match status with
    | some status => .ok status.toString
    | none => .error .nullPointer
  let data ← TaskStatusResource.new taskId none status
  let event : OutboundEvent := ⟨taskId.valueOf, name, data, "application/json"⟩
  return (st.subscriptions.get taskId).toList.map fun b => .broadcast b event

def recordStateChange (st : TaskStorage B) (taskId : Long) (status : Status) :
    Except Fault (TaskStorage B × List (Output B)) := do
  let st := { st with statuses := st.statuses.put taskId status }
  return (st, ← st.broadcast taskId (some status))

def queueNewMessage (st : TaskStorage B) (message : NewNumberCalculationMessage) :
    TaskStorage B × List (Output B) :=
  let taskId := st.id + 1
  let assigned : TaskIdAssignedMessage := ⟨taskId, message.number⟩
  ({ st with
      id := taskId
      tasks := st.tasks.put taskId message.number
      statuses := st.statuses.put taskId .QUEUED },
    [.toClusterProxy assigned, .replyAssigned assigned])

def registerNewSSESubscription (st : TaskStorage B) (message : RegisterForNotifications B) :
    Except Fault (TaskStorage B × List (Output B)) := do
  let st := { st with subscriptions := st.subscriptions.put message.taskId message.broadcaster }
  let existingStatus := st.statuses.get message.taskId
  if some .QUEUED ≠ existingStatus then
    return (st, ← st.broadcast message.taskId existingStatus)
  else
    return (st, [])

def receive (st : TaskStorage B) : Message B → Except Fault (TaskStorage B × List (Output B))
  | .newNumber m => .ok (st.queueNewMessage m)
  | .register m => st.registerNewSSESubscription m
  | .started m => st.recordStateChange m.taskId .STARTED
  | .finished m => st.recordStateChange m.taskId .FINISHED
  | .getStatus m => .ok (st, [.replyStatus (st.handleGet m)])

/-- `TaskStorage` under default supervision. -/
def actor (B : Type) : Actor (TaskStorage B) (Message B) (Output B) Fault := ⟨fresh, receive⟩

/-! ## What each handler does -/

/-- What a status change sends: its event, to the broadcaster registered for the task, if any. -/
def notify (st : TaskStorage B) (taskId : Long) (status : Status) : List (Output B) :=
  (st.subscriptions.get taskId).toList.map fun b => .broadcast b (event taskId status)

theorem broadcast_some (st : TaskStorage B) (taskId : Long) (status : Status) :
    st.broadcast taskId (some status) = .ok (st.notify taskId status) := by
  simp [broadcast, TaskStatusResource.new, event, notify, bind, Except.bind, pure, Except.pure]

/-- Broadcasting `null` throws, whether or not anybody is registered. -/
theorem broadcast_none (st : TaskStorage B) (taskId : Long) :
    st.broadcast taskId none = .error .nullPointer := rfl

theorem recordStateChange_eq (st : TaskStorage B) (taskId : Long) (status : Status) :
    st.recordStateChange taskId status =
      .ok ({ st with statuses := st.statuses.put taskId status }, st.notify taskId status) := by
  simp only [recordStateChange, broadcast_some, bind, Except.bind, pure, Except.pure]
  rfl

/-- Registering for a task with a status sends the status unless it is `QUEUED`. -/
theorem register_some {st : TaskStorage B} {m : RegisterForNotifications B} {status : Status}
    (h : st.statuses.get m.taskId = some status) :
    st.registerNewSSESubscription m =
      .ok ({ st with subscriptions := st.subscriptions.put m.taskId m.broadcaster },
        if status = .QUEUED then [] else [.broadcast m.broadcaster (event m.taskId status)]) := by
  rw [registerNewSSESubscription]
  cases status <;>
    simp [h, broadcast_some, notify, bind, Except.bind, pure, Except.pure]

/-- Registering for a task without a status throws. -/
theorem register_none {st : TaskStorage B} {m : RegisterForNotifications B}
    (h : st.statuses.get m.taskId = none) :
    st.registerNewSSESubscription m = .error .nullPointer := by
  rw [registerNewSSESubscription]
  simp [h, broadcast_none, bind, Except.bind]

/-! ## One message under supervision -/

theorem process_newNumber (st : TaskStorage B) (m : NewNumberCalculationMessage) :
    (actor B).process st (.newNumber m) = st.queueNewMessage m := rfl

theorem process_event (st : TaskStorage B) (e : Event) :
    (actor B).process st (.ofEvent e) =
      ({ st with statuses := st.statuses.put e.taskId e.status }, st.notify e.taskId e.status) := by
  cases e <;> exact Actor.process_ok (recordStateChange_eq st _ _)

theorem process_register_some {st : TaskStorage B} {m : RegisterForNotifications B}
    {status : Status} (h : st.statuses.get m.taskId = some status) :
    (actor B).process st (.register m) =
      ({ st with subscriptions := st.subscriptions.put m.taskId m.broadcaster },
        if status = .QUEUED then [] else [.broadcast m.broadcaster (event m.taskId status)]) :=
  Actor.process_ok (register_some h)

/-- A registration for a task without a status costs the storage everything it holds. -/
theorem process_register_none {st : TaskStorage B} {m : RegisterForNotifications B}
    (h : st.statuses.get m.taskId = none) :
    (actor B).process st (.register m) = (fresh, []) :=
  Actor.process_error (register_none h)

theorem process_getStatus (st : TaskStorage B) (m : GetTaskStatusMessage) :
    (actor B).process st (.getStatus m) = (st, [.replyStatus (st.handleGet m)]) := rfl

end

end TaskStorage

end PrimeTester
