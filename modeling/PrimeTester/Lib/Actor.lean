import Mathlib.Data.List.Induction

/-!
# Actors under restarting supervision

An actor takes the messages of its mailbox one at a time. Its handler either returns the next
state with the messages it sent, or throws; then the supervisor puts a fresh instance in the
actor's place and the mailbox goes on. `Actor.after` is the state after a list of messages and
`Actor.outputs` everything sent on the way, in order. `Actor.outputs` only ever grows, and
`Actor.mem_outputs` finds the message whose handler sent something.
-/

/-- An actor with state `σ`, incoming messages `ι`, outgoing messages `ο` and exceptions `ε`. -/
structure Actor (σ ι ο ε : Type*) where
  fresh : σ
  receive : σ → ι → Except ε (σ × List ο)

namespace Actor

variable {σ ι ο ε : Type*} {a : Actor σ ι ο ε} {s s' : σ} {m : ι} {ms ms' : List ι}
  {os : List ο} {o : ο}

/-- One message under supervision: a handler that throws costs the actor its state. -/
def process (a : Actor σ ι ο ε) (s : σ) (m : ι) : σ × List ο :=
  match a.receive s m with
  | .ok r => r
  | .error _ => (a.fresh, [])

theorem process_ok {r : σ × List ο} (h : a.receive s m = .ok r) : a.process s m = r := by
  rw [process, h]

theorem process_error {e : ε} (h : a.receive s m = .error e) : a.process s m = (a.fresh, []) := by
  rw [process, h]

/-- The state after a list of messages, and what was sent on the way. -/
def run (a : Actor σ ι ο ε) (ms : List ι) : σ × List ο :=
  ms.foldl (fun r m => ((a.process r.1 m).1, r.2 ++ (a.process r.1 m).2)) (a.fresh, [])

/-- The state after a list of messages. -/
def after (a : Actor σ ι ο ε) (ms : List ι) : σ := (a.run ms).1

/-- Everything sent during a list of messages. -/
def outputs (a : Actor σ ι ο ε) (ms : List ι) : List ο := (a.run ms).2

@[simp] theorem after_concat : a.after (ms ++ [m]) = (a.process (a.after ms) m).1 := by
  simp [after, run]

@[simp] theorem outputs_concat :
    a.outputs (ms ++ [m]) = a.outputs ms ++ (a.process (a.after ms) m).2 := by
  simp [outputs, after, run]

/-- What was sent stays sent. -/
theorem outputs_append (a : Actor σ ι ο ε) (ms ms' : List ι) :
    ∃ os, a.outputs (ms ++ ms') = a.outputs ms ++ os := by
  induction ms' using List.reverseRecOn with
  | nil => exact ⟨[], by simp⟩
  | append_singleton ms' m ih =>
    obtain ⟨os, ih⟩ := ih
    rw [← List.append_assoc, outputs_concat, ih, List.append_assoc]
    exact ⟨_, rfl⟩

theorem mem_outputs_append (h : o ∈ a.outputs ms) : o ∈ a.outputs (ms ++ ms') := by
  obtain ⟨os, hos⟩ := outputs_append a ms ms'
  rw [hos]
  exact List.mem_append_left _ h

/-- Whatever was sent, was sent by the handler of one of the messages, in the state that the
messages before it reach. -/
theorem mem_outputs : o ∈ a.outputs ms ↔
    ∃ pre m post, ms = pre ++ m :: post ∧ o ∈ (a.process (a.after pre) m).2 := by
  constructor
  · induction ms using List.reverseRecOn with
    | nil => intro h; cases h
    | append_singleton ms m ih =>
      rw [outputs_concat, List.mem_append]
      rintro (h | h)
      · obtain ⟨pre, m', post, rfl, ho⟩ := ih h
        exact ⟨pre, m', post ++ [m], by simp, ho⟩
      · exact ⟨ms, m, [], rfl, h⟩
  · rintro ⟨pre, m, post, rfl, ho⟩
    rw [List.append_cons]
    refine mem_outputs_append ?_
    rw [outputs_concat]
    exact List.mem_append_right _ ho

end Actor
