import Mathlib.Data.List.Basic
import Mathlib.Logic.Function.Basic

/-!
# Families of queues

`Channels K α` is a queue of messages for each key. Messages are sent to the end of a queue
(`send`) and taken from its front (`next`), and a lossy medium may drop any of them (`lose`).
-/

/-- For each key the messages in flight, the oldest first. -/
abbrev Channels (K α : Type*) := K → List α

namespace Channels

variable {K α : Type*} [DecidableEq K]

/-- Put messages at the end of the queue of `k`. -/
def send (q : Channels K α) (k : K) (xs : List α) : Channels K α :=
  Function.update q k (q k ++ xs)

/-- Take the first message out of the queue of `k`. -/
def next (q : Channels K α) (k : K) : Channels K α :=
  Function.update q k (q k).tail

/-- Drop the message at place `n` of the queue of `k`, if there is one. -/
def lose (q : Channels K α) (k : K) (n : Nat) : Channels K α :=
  Function.update q k ((q k).eraseIdx n)

variable (q : Channels K α) (k k' : K) (xs : List α) (n : Nat) {a : α}

theorem send_apply : q.send k xs k' = q k' ++ if k' = k then xs else [] := by
  rw [send, Function.update_apply]
  split
  · rename_i h
    rw [h]
  · rw [List.append_nil]

@[simp] theorem send_self : q.send k xs k = q k ++ xs := Function.update_self ..

@[simp] theorem next_self : q.next k k = (q k).tail := Function.update_self ..

@[simp] theorem lose_self : q.lose k n k = (q k).eraseIdx n := Function.update_self ..

theorem send_ne {k k' : K} (h : k' ≠ k) : q.send k xs k' = q k' := Function.update_of_ne h ..

theorem next_ne {k k' : K} (h : k' ≠ k) : q.next k k' = q k' := Function.update_of_ne h ..

theorem lose_ne {k k' : K} (h : k' ≠ k) : q.lose k n k' = q k' := Function.update_of_ne h ..

/-- A queue without a message taken or dropped is a part of the queue. -/
theorem next_sublist : (q.next k k').Sublist (q k') := by
  by_cases h : k' = k
  · rw [h, next_self]
    exact List.tail_sublist _
  · rw [next_ne q h]

theorem lose_sublist : (q.lose k n k').Sublist (q k') := by
  by_cases h : k' = k
  · rw [h, lose_self]
    exact List.eraseIdx_sublist _ _
  · rw [lose_ne q n h]

variable {q k k' xs n}

theorem mem_send : a ∈ q.send k xs k' ↔ a ∈ q k' ∨ k' = k ∧ a ∈ xs := by
  rw [send_apply, List.mem_append]
  split
  · rename_i h
    simp only [h, true_and]
  · rename_i h
    simp only [h, false_and, List.not_mem_nil]

theorem mem_of_mem_next (h : a ∈ q.next k k') : a ∈ q k' := (next_sublist q k k').subset h

theorem mem_of_mem_lose (h : a ∈ q.lose k n k') : a ∈ q k' := (lose_sublist q k k' n).subset h

/-- A message stays in flight until it is taken. -/
theorem mem_next_or {xs : List α} {b : α} (hq : q k = b :: xs) (h : a ∈ q k') :
    a ∈ q.next k k' ∨ k' = k ∧ a = b := by
  by_cases hk : k' = k
  · subst hk
    rw [next_self, hq, List.tail_cons]
    rw [hq, List.mem_cons] at h
    exact h.symm.imp_right fun hb => ⟨rfl, hb⟩
  · rw [next_ne q hk]
    exact .inl h

end Channels
