import PrimeTester.Endpoints
import PrimeTester.TaskStorage

/-!
# The page

The handlers of `engine.js`, for one click on `sendBtn` in a browser with `EventSource`: what they
append to the table of messages, and what they make the browser do next. Where a message shows JSON
text, its row carries what the text is made from. The numbers of the rows are left out.
-/

namespace PrimeTester.Engine

/-! ## The table of messages -/

/-- The levels of messages. -/
inductive Level where
  | success
  | info
  | error

/-- The CSS class of each level. -/
def levels : Level → String
  | .success => "success"
  | .info => "info"
  | .error => "danger"

/-- What the JSON text in a message is made from. -/
inductive Data where
  | task (resource : TaskStatusResource)
  | result (resource : ResultResource)
  deriving DecidableEq

/-- A row of the table: its class, and its text with the data after it. -/
structure Row where
  css : String
  text : String
  data : Option Data
  deriving DecidableEq

def display (text : String) (data : Option Data) (level : Level) : Row := ⟨levels level, text, data⟩

/-! ## A click and its handlers -/

/-- How far the request of a click has come. -/
inductive Phase (B : Type) where
  /-- The POST is on its way. -/
  | posting (number : String)
  /-- Its response is on its way. -/
  | posted (response : Except Fault (Response TaskStatusResource))
  /-- It ended without a response that `success` is called with. -/
  | unanswered
  /-- The request of the `EventSource` is on its way. -/
  | subscribing (taskId : Long)
  /-- The `EventSource` is not open yet; its events come from this broadcaster. -/
  | connecting (taskId : Long) (source : B)
  | listening (taskId : Long) (source : B)
  /-- The browser has given up connecting. -/
  | failed
  /-- `source.close()` was called. -/
  | closed

/-- The id in the URL of the `EventSource`, while that is connecting or open. -/
def Phase.taskId? {B : Type} : Phase B → Option Long
  | .subscribing taskId | .connecting taskId _ | .listening taskId _ => some taskId
  | _ => none

/-- A request that the `FINISHED` handler has sent, with the response once there is one. -/
inductive Ajax where
  | requested (taskId : Long)
  | answered (response : Except Fault (Response TaskStatusResource))
  | followed (response : Response ResultResource)

/-- What `success` is called with, if it is called. -/
def Ajax.data? : Ajax → Option Data
  | .answered (.ok (.ok resource)) => some (.task resource)
  | .followed (.ok resource) => some (.result resource)
  | _ => none

/-- One click on `sendBtn`, with the rows that its handlers have displayed. -/
structure Click (B : Type) where
  rows : List Row
  phase : Phase B
  ajax : List Ajax

section
variable {B : Type}

/-- `sendNumber`, called with the number in the input field. -/
def sendNumber (number : String) : Click B := ⟨[], .posting number, []⟩

def sendNumber.success (click : Click B) (response : TaskStatusResource) : Click B :=
  { click with
    rows := click.rows ++ [display "Queued task " (some (.task response)) .success]
    phase := .subscribing response.taskId }

namespace subscribeForNotifications

def onopen (click : Click B) : Click B :=
  { click with rows := click.rows ++ [display "connected to SSE" none .info] }

/-- `data` is `undefined` in the error events of the browser. -/
def onerror (click : Click B) : Option Data → Click B
  | none => { click with rows := click.rows ++ [display "Got error undefined" none .error] }
  | some data => { click with rows := click.rows ++ [display "Got error " (some data) .error] }

def onmessage (click : Click B) (event : OutboundEvent) : Click B :=
  { click with
    rows := click.rows ++ [display "Received message: " (some (.task event.data)) .info] }

def onSTARTED (click : Click B) (event : OutboundEvent) : Click B :=
  { click with
    rows := click.rows ++ [display "Calculation STARTED: " (some (.task event.data)) .info] }

def onFINISHED (click : Click B) (event : OutboundEvent) : Click B :=
  { click with
    rows := click.rows ++ [display "Calculation Finished: " (some (.task event.data)) .info]
    ajax := click.ajax ++ [.requested event.data.taskId] }

/-- The `success` of the request that `onFINISHED` sends. -/
def success (click : Click B) (response : Data) : Click B :=
  { click with
    rows := click.rows ++ [display "Got Result " (some response) .success]
    phase := .closed }

/-- The handler of an event goes by its name, and without one it is `onmessage`. An event that has
no listener is ignored. -/
def dispatch (click : Click B) (event : OutboundEvent) : Click B :=
  match event.name with
  | "STARTED" => onSTARTED click event
  | "FINISHED" => onFINISHED click event
  | "open" => onopen click
  | "error" => onerror click (some (.task event.data))
  | "" | "message" => onmessage click event
  | _ => click

end subscribeForNotifications

end

end PrimeTester.Engine
