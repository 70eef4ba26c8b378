import Mathlib.Algebra.Order.BigOperators.Group.Finset
import Mathlib.Algebra.Order.BigOperators.Group.List
import Mathlib.Algebra.Order.Ring.Nat
import Mathlib.Data.Fintype.BigOperators
import PrimeTester.Lib.Channel

/-!
# Sums over a family of queues

`Channels.total g q` adds up the weights `g` of all the messages in the queues `q`. Sending adds the
weights of the new messages, taking a message subtracts its weight (`total_next`, stated without
subtraction), and losing a message adds nothing. All of it comes from `sum_update`: a sum over a
family changes at the updated key only.
-/

section
variable {K β : Type*} [Fintype K] [DecidableEq K]

/-- A sum over a family, after one member is replaced. -/
theorem sum_update (q : K → β) (k : K) (b : β) (h : K → β → ℕ) :
    ∑ k', h k' (Function.update q k b k') + h k (q k) = ∑ k', h k' (q k') + h k b := by
  have hrest : ∑ k' ∈ Finset.univ.erase k, h k' (Function.update q k b k') =
      ∑ k' ∈ Finset.univ.erase k, h k' (q k') := by
    refine Finset.sum_congr rfl fun k' hk' => ?_
    rw [Function.update_of_ne (Finset.ne_of_mem_erase hk')]
  rw [← Finset.add_sum_erase _ _ (Finset.mem_univ k), Function.update_self, hrest,
    ← Finset.add_sum_erase _ (fun k' => h k' (q k')) (Finset.mem_univ k)]
  omega

end

namespace Channels

variable {K α : Type*} [Fintype K]

/-- The weights of all the messages in flight. -/
def total (g : K → α → ℕ) (q : Channels K α) : ℕ := ∑ k, ((q k).map (g k)).sum

/-- Without messages there is no weight. -/
@[simp] theorem total_nil (g : K → α → ℕ) : total g (fun _ => []) = 0 := by simp [total]

/-- A message in flight weighs no more than all of them. -/
theorem le_total {q : Channels K α} {k : K} {a : α} (h : a ∈ q k) (g : K → α → ℕ) :
    g k a ≤ q.total g := by
  have hqueue : g k a ≤ ((q k).map (g k)).sum :=
    List.single_le_sum (fun _ _ => Nat.zero_le _) _ (List.mem_map_of_mem h)
  refine hqueue.trans ?_
  exact Finset.single_le_sum (f := fun k => ((q k).map (g k)).sum) (fun _ _ => Nat.zero_le _)
    (Finset.mem_univ k)

/-- Messages without weight have no total. -/
theorem total_eq_zero {g : K → α → ℕ} {q : Channels K α} (h : ∀ k a, g k a = 0) :
    q.total g = 0 := by
  refine Finset.sum_eq_zero fun k _ => List.sum_eq_zero fun x hx => ?_
  obtain ⟨a, -, rfl⟩ := List.mem_map.1 hx
  exact h k a

@[simp] theorem total_zero (q : Channels K α) : q.total (fun _ _ => 0) = 0 :=
  total_eq_zero fun _ _ => rfl

/-- Weights of one and zero count the messages of a queue. -/
theorem sum_map_ite [DecidableEq α] (l : List α) (a : α) :
    (l.map fun b => if b = a then 1 else 0).sum = l.count a := by
  induction l with
  | nil => rfl
  | cons b l ih =>
    rw [List.map_cons, List.sum_cons, ih, List.count_cons, Nat.add_comm]
    simp only [beq_iff_eq]

theorem total_count [DecidableEq α] (q : Channels K α) (a : α) :
    q.total (fun _ b => if b = a then 1 else 0) = ∑ k, (q k).count a :=
  Finset.sum_congr rfl fun k _ => sum_map_ite (q k) a

/-- At one key only. -/
theorem total_count_at [DecidableEq K] [DecidableEq α] (q : Channels K α) (k : K) (a : α) :
    q.total (fun k' b => if k' = k ∧ b = a then 1 else 0) = (q k).count a := by
  rw [total, Finset.sum_eq_single_of_mem k (Finset.mem_univ k)]
  · simp only [true_and]
    exact sum_map_ite (q k) a
  · intro k' _ hne
    refine List.sum_eq_zero fun x hx => ?_
    obtain ⟨b, -, rfl⟩ := List.mem_map.1 hx
    exact if_neg fun hc => hne hc.1

variable [DecidableEq K] (q : Channels K α) (g : K → α → ℕ)

/-- Sending adds the weights of the messages. -/
theorem total_send (k : K) (xs : List α) :
    (q.send k xs).total g = q.total g + (xs.map (g k)).sum := by
  have hsum := sum_update q k (q k ++ xs) fun k' l => (l.map (g k')).sum
  simp only [List.map_append, List.sum_append] at hsum
  rw [total, total, send]
  omega

variable {q}

/-- Taking a message subtracts its weight. -/
theorem total_next {k : K} {a : α} {as : List α} (hq : q k = a :: as) :
    (q.next k).total g + g k a = q.total g := by
  have hsum := sum_update q k (q k).tail fun k' l => (l.map (g k')).sum
  simp only [hq, List.tail_cons, List.map_cons, List.sum_cons] at hsum
  rw [total, total, next, hq, List.tail_cons]
  omega

/-- Losing a message adds nothing. -/
theorem total_lose_le (k : K) (n : ℕ) : (q.lose k n).total g ≤ q.total g := by
  refine Finset.sum_le_sum fun k' _ => List.Sublist.sum_le_sum ?_ fun _ _ => Nat.zero_le _
  exact (lose_sublist q k k' n).map _

end Channels
