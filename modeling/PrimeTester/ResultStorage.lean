import PrimeTester.Endpoints
import PrimeTester.Lib.Actor

/-!
# The result storage

The actor `ResultStorage`. It is subscribed to the same topic as `TaskStorage`, so it is also sent
`CalculationStarted`, which it leaves to `unhandled`. Nothing it does throws. `get_results` says
what it holds after any list of messages: under every number the last `CalculationFinished` that
carried it.
-/

namespace PrimeTester

@[ext] structure ResultStorage where
  results : HashMap String CalculationFinished

namespace ResultStorage

/-- A fresh instance. -/
def fresh : ResultStorage := ⟨.empty⟩

/-- The messages of `receive`. -/
inductive Message where
  | finished (m : CalculationFinished)
  | getResult (m : GetCalculationResultMessage)
  | unhandled (m : CalculationStarted)
  deriving DecidableEq

/-- The message in which an event of a worker arrives. -/
def Message.ofEvent : Event → Message
  | .started m => .unhandled m
  | .finished m => .finished m

def storeResult (st : ResultStorage) (message : CalculationFinished) : ResultStorage :=
  ⟨st.results.put message.number message⟩

def handleGet (st : ResultStorage) (message : GetCalculationResultMessage) :
    CalculationResultMessage :=
  match st.results.get message.number with
  | some cf => ⟨cf.number, cf.isPrime, cf.divider⟩
  | none => CalculationResultMessage.NOT_FOUND

/-- The handlers, with the answers they send. -/
def receive (st : ResultStorage) :
    Message → Except Fault (ResultStorage × List CalculationResultMessage)
  | .finished m => .ok (st.storeResult m, [])
  | .getResult m => .ok (st, [st.handleGet m])
  | .unhandled _ => .ok (st, [])

/-- `ResultStorage` under default supervision. -/
def actor : Actor ResultStorage Message CalculationResultMessage Fault := ⟨fresh, receive⟩

/-- The storage after a list of messages. -/
abbrev after (ms : List Message) : ResultStorage := actor.after ms

/-- The result under `k` that a message brings. -/
def Message.result? (k : String) : Message → Option CalculationFinished
  | .finished m => if m.number = k then some m else none
  | _ => none

theorem Message.result?_eq_some {k : String} {m : Message} {cf : CalculationFinished} :
    m.result? k = some cf ↔ m = .finished cf ∧ cf.number = k := by
  cases m with
  | finished m =>
    rw [Message.result?, Option.ite_none_right_eq_some, Option.some_inj, Message.finished.injEq]
    constructor
    · rintro ⟨hk, rfl⟩; exact ⟨rfl, hk⟩
    · rintro ⟨rfl, hk⟩; exact ⟨hk, rfl⟩
  | getResult m => simp [Message.result?]
  | unhandled m => simp [Message.result?]

theorem get_process (st : ResultStorage) (m : Message) (k : String) :
    (actor.process st m).1.results.get k = ((m.result? k).or (st.results.get k)) := by
  cases m with
  | finished m =>
    show (st.results.put m.number m).get k = _
    rw [HashMap.get_put, Message.result?]
    by_cases hk : k = m.number
    · rw [if_pos hk, if_pos hk.symm]; rfl
    · rw [if_neg hk, if_neg (Ne.symm hk)]; rfl
  | getResult m => rfl
  | unhandled m => rfl

/-- **What the storage holds.** Under every number, the last result that came with it. -/
theorem get_results (ms : List Message) (k : String) :
    (after ms).results.get k = (ms.filterMap (Message.result? k)).getLast? := by
  induction ms using List.reverseRecOn with
  | nil => rfl
  | append_singleton ms m ih =>
    rw [after, Actor.after_concat, get_process, ih, List.filterMap_append]
    cases hm : m.result? k with
    | none => simp [hm]
    | some cf => simp [hm]

/-- A result that is held came in a message. -/
theorem mem_of_get_results {ms : List Message} {k : String} {cf : CalculationFinished}
    (h : (after ms).results.get k = some cf) : .finished cf ∈ ms ∧ cf.number = k := by
  rw [get_results] at h
  obtain ⟨m, hm, hcf⟩ := List.mem_filterMap.1 (List.mem_of_getLast? h)
  obtain ⟨rfl, hk⟩ := Message.result?_eq_some.1 hcf
  exact ⟨hm, hk⟩

/-- A number has a result exactly when one came in a message. -/
theorem get_results_ne_none {ms : List Message} {k : String} :
    (after ms).results.get k ≠ none ↔ ∃ cf, .finished cf ∈ ms ∧ cf.number = k := by
  constructor
  · intro h
    obtain ⟨cf, hcf⟩ := Option.ne_none_iff_exists'.1 h
    exact ⟨cf, mem_of_get_results hcf⟩
  · rintro ⟨cf, hcf, hk⟩
    rw [get_results, ne_eq, List.getLast?_eq_none_iff]
    exact List.ne_nil_of_mem (List.mem_filterMap.2 ⟨_, hcf, Message.result?_eq_some.2 ⟨rfl, hk⟩⟩)

/-- A stored result under a nonempty number is not taken for a missing one. -/
theorem handleGet_of_get {st : ResultStorage} {k : String} {cf : CalculationFinished}
    (h : st.results.get k = some cf) (hk : cf.number = k) (hne : k ≠ "") :
    st.handleGet ⟨k⟩ = ⟨k, cf.isPrime, cf.divider⟩ ∧
      st.handleGet ⟨k⟩ ≠ CalculationResultMessage.NOT_FOUND := by
  have hget : st.handleGet ⟨k⟩ = ⟨k, cf.isPrime, cf.divider⟩ := by
    rw [handleGet]
    simp only [h, hk]
  refine ⟨hget, fun hc => hne ?_⟩
  rw [hget] at hc
  exact congrArg CalculationResultMessage.number hc

end ResultStorage

end PrimeTester
