import PrimeTester.Cluster.Pages
import PrimeTester.Cluster.Redirect
import PrimeTester.Engine
import PrimeTester.Lib.Component

/-!
# A page in the cluster

A click on `sendBtn` of some page, in a cluster with one frontend and among whatever else happens
there: other clicks and other clients, losses, crashes. The requests of the click are taken by the
frontend at some time after they were sent, and their responses and the events reach the page at
some time after that; the events of a broadcaster arrive in order.

What may go wrong between the page and the frontend:

* a request ends without a response that its handler is called with, be it lost, answered `404` or
  `500`, or answered too late;
* the connection of the `EventSource` is interrupted, whether open or not. The browser tells
  `onerror` and connects anew, which registers again and with another broadcaster;
* the browser gives up connecting.

A request that is taken after the page has given it up is one of the other steps.
-/

namespace PrimeTester.Cluster

open Engine (Click Ajax Row sendNumber)

/-- The cluster with a click, and the events on their way from each broadcaster. -/
structure Session (W B : Type) where
  cluster : State Unit Empty W B
  wire : B → List OutboundEvent
  click : Click B

namespace Session

/-- What happens next: something that the click has no part in, a step of the click, or a failure of
its requests or its connection. -/
inductive Label (W B : Type) where
  | other (l : Cluster.Label Unit Empty W B)
  | post (r : CreateTaskResource)
  | posted (response : TaskStatusResource)
  | subscribe (taskId : Long) (b : B)
  | opened
  | event (e : OutboundEvent)
  | getStatus (taskId : Long)
  | getResult (number : String) (answer : CalculationResultMessage)
  | success (response : Engine.Data)
  | unanswered
  | interrupted
  | failed

/-- What happens in the cluster. -/
def Label.cluster? {W B : Type} : Label W B → Option (Cluster.Label Unit Empty W B)
  | other l => some l
  | post r => some (.request () (.createTask r))
  | subscribe i b => some (.request () (.suspend i b))
  | getStatus i => some (.request () (.getStatus i))
  | getResult number answer => some (.getResult () ⟨number⟩ answer)
  | posted _ | opened | event _ | success _ | unanswered | interrupted | failed => none

/-- The steps that the click takes when nothing goes wrong. -/
def Label.own {W B : Type} : Label W B → Bool
  | other _ | unanswered | interrupted | failed => false
  | _ => true

/-- The connection breaks. -/
def Label.breaks {W B : Type} : Label W B → Bool
  | interrupted | failed => true
  | _ => false

/-- A request fails. -/
def Label.drops {W B : Type} : Label W B → Bool
  | unanswered => true
  | _ => false

section
variable {W B : Type} [DecidableEq W] [DecidableEq B]

/-- What a step of the cluster sends to `b`. -/
def sends (b : B) (s : State Unit Empty W B) (l : Cluster.Label Unit Empty W B) :
    List OutboundEvent :=
  ((l.taskMessage? ()).elim [] fun m =>
    ((TaskStorage.actor B).process (s.taskStorage ()) m).2).filterMap (TaskStorage.Output.event? b)

/-- After a step of the cluster with label `l`, which leads to `s`. -/
def advance (w : Session W B) (l : Cluster.Label Unit Empty W B) (s : State Unit Empty W B)
    (click : Click B) : Session W B :=
  ⟨s, fun b => w.wire b ++ sends b w.cluster l, click⟩

omit [DecidableEq W] in
@[simp] theorem advance_click (w : Session W B) (l : Cluster.Label Unit Empty W B)
    (s : State Unit Empty W B) (click : Click B) : (w.advance l s click).click = click := rfl

/-- One step. A number that `CreateTaskResource` refuses is not taken. -/
inductive Step : Session W B → Label W B → Session W B → Prop
  | other {w : Session W B} {l : Cluster.Label Unit Empty W B} {s : State Unit Empty W B}
    (hs : Cluster.Step w.cluster l s) : Step w (.other l) (w.advance l s w.click)
  /-- `createTask` takes the POST. -/
  | post {w : Session W B} {s : State Unit Empty W B} {rows : List Row} {ajax : List Ajax}
    {number : String} {r : CreateTaskResource}
    {response : Except Fault (Response TaskStatusResource)}
    (hclick : w.click = ⟨rows, .posting number, ajax⟩)
    (hr : CreateTaskResource.validate (some number) = some r)
    (hs : Cluster.Step w.cluster (.request () (.createTask r)) s)
    (hobs : observe w.cluster (.request () (.createTask r)) = some (.created r response)) :
    Step w (.post r) (w.advance (.request () (.createTask r)) s ⟨rows, .posted response, ajax⟩)
  | posted {w : Session W B} {rows : List Row} {ajax : List Ajax} {response : TaskStatusResource}
    (hclick : w.click = ⟨rows, .posted (.ok (.ok response)), ajax⟩) :
    Step w (.posted response) { w with click := sendNumber.success w.click response }
  /-- `suspend` takes the request of the `EventSource`. -/
  | subscribe {w : Session W B} {s : State Unit Empty W B} {rows : List Row} {ajax : List Ajax}
    {i : Long} {b : B} (hclick : w.click = ⟨rows, .subscribing i, ajax⟩)
    (hs : Cluster.Step w.cluster (.request () (.suspend i b)) s) :
    Step w (.subscribe i b)
      (w.advance (.request () (.suspend i b)) s ⟨rows, .connecting i b, ajax⟩)
  | opened {w : Session W B} {rows : List Row} {ajax : List Ajax} {i : Long} {b : B}
    (hclick : w.click = ⟨rows, .connecting i b, ajax⟩) :
    Step w .opened { w with
      click := { Engine.subscribeForNotifications.onopen w.click with phase := .listening i b } }
  | event {w : Session W B} {rows : List Row} {ajax : List Ajax} {i : Long} {b : B}
    {e : OutboundEvent} {es : List OutboundEvent}
    (hclick : w.click = ⟨rows, .listening i b, ajax⟩) (hwire : w.wire b = e :: es) :
    Step w (.event e) { w with
      wire := Function.update w.wire b es
      click := Engine.subscribeForNotifications.dispatch w.click e }
  /-- `getStatus` takes a request of the `FINISHED` handler. -/
  | getStatus {w : Session W B} {s : State Unit Empty W B} {pre post : List Ajax} {i : Long}
    {response : Except Fault (Response TaskStatusResource)}
    (hajax : w.click.ajax = pre ++ .requested i :: post)
    (hs : Cluster.Step w.cluster (.request () (.getStatus i)) s)
    (hobs : observe w.cluster (.request () (.getStatus i)) = some (.status i response)) :
    Step w (.getStatus i) (w.advance (.request () (.getStatus i)) s
      { w.click with ajax := pre ++ .answered response :: post })
  /-- The browser follows a redirect, and `getResult` takes the request. -/
  | getResult {w : Session W B} {s : State Unit Empty W B} {pre post : List Ajax}
    {number : String} {answer : CalculationResultMessage} {response : Response ResultResource}
    (hajax : w.click.ajax =
      pre ++ .answered (.ok (.seeOther ("/api/results/" ++ number))) :: post)
    (hs : Cluster.Step w.cluster (.getResult () ⟨number⟩ answer) s)
    (hobs : observe w.cluster (.getResult () ⟨number⟩ answer) = some (.result number response)) :
    Step w (.getResult number answer) (w.advance (.getResult () ⟨number⟩ answer) s
      { w.click with ajax := pre ++ .followed response :: post })
  | success {w : Session W B} {pre post : List Ajax} {x : Ajax} {response : Engine.Data}
    (hajax : w.click.ajax = pre ++ x :: post) (hx : x.data? = some response) :
    Step w (.success response) { w with
      click := Engine.subscribeForNotifications.success
        { w.click with ajax := pre ++ post } response }
  /-- The POST or its response fails. -/
  | unposted {w : Session W B}
    (hphase : (∃ number, w.click.phase = .posting number) ∨
      ∃ response, w.click.phase = .posted response) :
    Step w .unanswered { w with click := { w.click with phase := .unanswered } }
  /-- A request of the `FINISHED` handler or its response fails. -/
  | dropped {w : Session W B} {pre post : List Ajax} {x : Ajax}
    (hajax : w.click.ajax = pre ++ x :: post) :
    Step w .unanswered { w with click := { w.click with ajax := pre ++ post } }
  | interrupted {w : Session W B} {i : Long} (hphase : w.click.phase.taskId? = some i) :
    Step w .interrupted { w with click :=
      { Engine.subscribeForNotifications.onerror w.click none with phase := .subscribing i } }
  | failed {w : Session W B} {i : Long} (hphase : w.click.phase.taskId? = some i) :
    Step w .failed { w with click :=
      { Engine.subscribeForNotifications.onerror w.click none with phase := .failed } }

/-- A click with this number in the input field. -/
def system (W B : Type) [DecidableEq W] [DecidableEq B] (number : String) :
    LTS (Session W B) (Label W B) :=
  ⟨⟨State.init, fun _ => [], sendNumber number⟩, Step⟩

variable {number : String}

/-- The cluster is a component. -/
theorem component : LTS.Component (system W B number) (Cluster.system Unit Empty W B)
    Session.cluster Label.cluster? where
  init := rfl
  move := by
    intro w l w' m hs hl
    cases hs with
    | other hs | post _ _ hs _ | subscribe _ hs | getStatus _ hs _ | getResult _ hs _ =>
      cases hl
      exact hs
    | _ => cases hl
  stay := by
    intro w l w' hs hl
    cases hs with
    | other | post | subscribe | getStatus | getResult => cases hl
    | _ => rfl

end

end Session

end PrimeTester.Cluster
