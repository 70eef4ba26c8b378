import PrimeTester.Lib.Channel
import PrimeTester.Lib.Run
import PrimeTester.ResultStorage
import PrimeTester.TaskStorage.Runs
import PrimeTester.Worker

/-!
# The cluster

The whole system: frontends `F`, each with a `TaskStorage`, a `ResultStorage` and a `ClusterProxy`;
`ClusterClient`s `C`, each with a `ClusterProxy` only; workers `W`, and the messages in flight
between them. `B` is the type of broadcasters. A step is one actor taking one message, and the label
of a step says which; `Loss` is what the network and crashes may take away.

* A client request is taken by the storage it is sent to. Different clients are different senders,
  so requests reach the storage in any order.
* The router of a `ClusterProxy` hands each task to one worker. Which one is not fixed.
* A worker publishes on one topic. Every event goes to the mailboxes of both storages of every
  frontend; each of these mailboxes keeps the order of the events of one worker.
* While a worker computes, others go on, so the start and the end of a calculation are two steps.

A task in flight carries the place where it was submitted. This is bookkeeping for the proofs: no
handler reads it.
-/

namespace PrimeTester

/-- A client's request to a frontend, with what the endpoint makes of it. -/
inductive Request (B : Type) where
  | createTask (resource : CreateTaskResource)
  | getStatus (taskId : Long)
  | suspend (taskId : Long) (broadcaster : B)

/-- The message that `TasksEndpoint` sends to the task storage. -/
def Request.toMessage {B : Type} : Request B → TaskStorage.Message B
  | createTask resource => .newNumber resource.toMessage
  | getStatus taskId => .getStatus ⟨taskId⟩
  | suspend taskId broadcaster => .register ⟨taskId, broadcaster⟩

/-- The task that `ClusterClient` sends for every line it reads. -/
def ClusterClient.task : TaskIdAssignedMessage := ⟨123, "1234"⟩

namespace Cluster

/-- A message with the place where its task was submitted. -/
structure Envelope (F C M : Type) where
  origin : F ⊕ C
  message : M
  deriving DecidableEq

/-- A task on its way to a worker. -/
abbrev Task (F C : Type) := Envelope F C TaskIdAssignedMessage

/-- An event on its way to a storage. -/
abbrev Published (F C : Type) := Envelope F C Event

def Task.started {F C : Type} (t : Task F C) : Published F C :=
  ⟨t.origin, .started ⟨t.message.taskId⟩⟩

def Task.finished {F C : Type} (t : Task F C) (m : CalculationFinished) : Published F C :=
  ⟨t.origin, .finished m⟩

@[ext] structure State (F C W B : Type) where
  taskStorage : F → TaskStorage B
  resultStorage : F → ResultStorage
  clusterProxy : Channels (F ⊕ C) TaskIdAssignedMessage
  mailbox : Channels W (Task F C)
  busy : W → Option (Task F C)
  statusMail : F → Channels W (Published F C)
  resultMail : F → Channels W (Published F C)

/-- A message that is dropped: out of a queue at some place, or with a worker that crashes. -/
inductive Loss (F C W : Type) where
  | assigned (p : F ⊕ C) (n : Nat)
  | routed (w : W) (n : Nat)
  | crash (w : W)
  | status (f : F) (w : W) (n : Nat)
  | result (f : F) (w : W) (n : Nat)

inductive Label (F C W B : Type) where
  | request (f : F) (r : Request B)
  | getResult (f : F) (m : GetCalculationResultMessage) (answer : CalculationResultMessage)
  | client (c : C)
  | forward (p : F ⊕ C) (w : W)
  | begin (w : W) (t : Task F C)
  | complete (w : W) (t : Task F C) (m : CalculationFinished)
  | fail (w : W) (t : Task F C)
  | statusEvent (f : F) (w : W) (e : Published F C)
  | resultEvent (f : F) (w : W) (e : Published F C)
  | lose (x : Loss F C W)

section
variable {F C W B : Type} [DecidableEq F] [DecidableEq C] [DecidableEq W]

namespace State

/-- Nothing is submitted yet. -/
def init : State F C W B where
  taskStorage _ := TaskStorage.fresh
  resultStorage _ := ResultStorage.fresh
  clusterProxy _ := []
  mailbox _ := []
  busy _ := none
  statusMail _ _ := []
  resultMail _ _ := []

/-- The task storage of `f` takes a message; what it sends to its proxy is in flight. -/
def deliver (s : State F C W B) (f : F) (m : TaskStorage.Message B) : State F C W B :=
  let r := (TaskStorage.actor B).process (s.taskStorage f) m
  { s with
    taskStorage := Function.update s.taskStorage f r.1
    clusterProxy := s.clusterProxy.send (.inl f) (r.2.filterMap TaskStorage.Output.forwarded?) }

/-- The result storage of `f` takes an event. -/
def store (s : State F C W B) (f : F) (m : ResultStorage.Message) : State F C W B :=
  { s with
    resultStorage := Function.update s.resultStorage f
      (ResultStorage.actor.process (s.resultStorage f) m).1 }

/-- The worker `w` publishes an event. -/
def publish (s : State F C W B) (w : W) (e : Published F C) : State F C W B :=
  { s with
    statusMail := fun f => (s.statusMail f).send w [e]
    resultMail := fun f => (s.resultMail f).send w [e] }

/-- A message is dropped. -/
def lose (s : State F C W B) : Loss F C W → State F C W B
  | .assigned p n => { s with clusterProxy := s.clusterProxy.lose p n }
  | .routed w n => { s with mailbox := s.mailbox.lose w n }
  | .crash w => { s with busy := Function.update s.busy w none }
  | .status f w n =>
    { s with statusMail := Function.update s.statusMail f ((s.statusMail f).lose w n) }
  | .result f w n =>
    { s with resultMail := Function.update s.resultMail f ((s.resultMail f).lose w n) }

end State

/-- One step of the system. -/
inductive Step : State F C W B → Label F C W B → State F C W B → Prop
  | request (s : State F C W B) (f : F) (r : Request B) :
    Step s (.request f r) (s.deliver f r.toMessage)
  | getResult (s : State F C W B) (f : F) (m : GetCalculationResultMessage) :
    Step s (.getResult f m ((s.resultStorage f).handleGet m)) (s.store f (.getResult m))
  | client (s : State F C W B) (c : C) :
    Step s (.client c) { s with clusterProxy := s.clusterProxy.send (.inr c) [ClusterClient.task] }
  /-- `ClusterProxy.forward`: the router picks a worker. -/
  | forward {s : State F C W B} {p : F ⊕ C} {m : TaskIdAssignedMessage}
    {ms : List TaskIdAssignedMessage} (w : W) (hp : s.clusterProxy p = m :: ms) :
    Step s (.forward p w)
      { s with clusterProxy := s.clusterProxy.next p, mailbox := s.mailbox.send w [⟨p, m⟩] }
  /-- `Worker.calculate` up to the calculation. -/
  | begin {s : State F C W B} {w : W} {t : Task F C} {ts : List (Task F C)}
    (hidle : s.busy w = none) (hw : s.mailbox w = t :: ts) :
    Step s (.begin w t)
      (State.publish { s with
        mailbox := s.mailbox.next w
        busy := Function.update s.busy w (some t) } w t.started)
  /-- The calculation ends with a result. -/
  | complete {s : State F C W B} {w : W} {t : Task F C} {m : CalculationFinished}
    {np : NextProbablePrime} {fuel : Nat} (hnp : np.SkipsNoPrime) (hw : s.busy w = some t)
    (hm : Worker.checkIsPrime np fuel t.message = .ok m) :
    Step s (.complete w t m)
      (State.publish { s with busy := Function.update s.busy w none } w (t.finished m))
  /-- The calculation ends with an exception, and the worker is restarted. -/
  | fail {s : State F C W B} {w : W} {t : Task F C} {fault : Fault}
    {np : NextProbablePrime} {fuel : Nat} (hnp : np.SkipsNoPrime) (hw : s.busy w = some t)
    (hm : Worker.checkIsPrime np fuel t.message = .error fault) (hfault : fault ≠ .outOfFuel) :
    Step s (.fail w t) { s with busy := Function.update s.busy w none }
  | statusEvent {s : State F C W B} {f : F} {w : W} {e : Published F C}
    {es : List (Published F C)} (hf : s.statusMail f w = e :: es) :
    Step s (.statusEvent f w e)
      (State.deliver { s with
        statusMail := Function.update s.statusMail f ((s.statusMail f).next w) }
        f (.ofEvent e.message))
  | resultEvent {s : State F C W B} {f : F} {w : W} {e : Published F C}
    {es : List (Published F C)} (hf : s.resultMail f w = e :: es) :
    Step s (.resultEvent f w e)
      (State.store { s with
        resultMail := Function.update s.resultMail f ((s.resultMail f).next w) }
        f (.ofEvent e.message))
  | lose (s : State F C W B) (x : Loss F C W) : Step s (.lose x) (s.lose x)

/-- The cluster as a transition system. -/
def system (F C W B : Type) [DecidableEq F] [DecidableEq C] [DecidableEq W] :
    LTS (State F C W B) (Label F C W B) := ⟨State.init, Step⟩

/-! ## What the storages have taken -/

/-- The message that a step brings to the task storage of `f`. -/
def Label.taskMessage? (f : F) : Label F C W B → Option (TaskStorage.Message B)
  | .request f' r => if f' = f then some r.toMessage else none
  | .statusEvent f' _ e => if f' = f then some (.ofEvent e.message) else none
  | _ => none

/-- The messages that the task storage of `f` has taken, in order. -/
def taskMessages (f : F) (tr : List (Label F C W B)) : List (TaskStorage.Message B) :=
  tr.filterMap (Label.taskMessage? f)

/-- The message that a step brings to the result storage of `f`. -/
def Label.resultMessage? (f : F) : Label F C W B → Option ResultStorage.Message
  | .getResult f' m _ => if f' = f then some (.getResult m) else none
  | .resultEvent f' _ e => if f' = f then some (.ofEvent e.message) else none
  | _ => none

/-- The messages that the result storage of `f` has taken, in order. -/
def resultMessages (f : F) (tr : List (Label F C W B)) : List ResultStorage.Message :=
  tr.filterMap (Label.resultMessage? f)

end

end Cluster

end PrimeTester
