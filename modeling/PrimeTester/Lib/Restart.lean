import PrimeTester.Lib.Actor
import PrimeTester.Lib.Run

/-!
# Restarts of an actor

A message whose handler throws starts the actor afresh, so it cuts the mailbox in two: what comes
after it is as if it were the whole mailbox (`after_restart`, `outputs_restart`). `Actor.epoch` is
the part of the mailbox after the last such message. The actor is what its epoch makes of a fresh
one (`after_epoch`), and no handler throws in an epoch (`always_epoch`).
-/

namespace Actor

variable {σ ι ο ε : Type*} (a : Actor σ ι ο ε)

/-- The handler of the message throws. -/
def throws (s : σ) (m : ι) : Bool :=
  match a.receive s m with
  | .ok _ => false
  | .error _ => true

/-- The messages since the last restart. -/
def epoch (ms : List ι) : List ι :=
  ms.foldl (fun pre m => if a.throws (a.after pre) m then [] else pre ++ [m]) []

variable {a} {s : σ} {m : ι} {ms pre post : List ι}

/-- A message whose handler throws leaves a fresh actor and sends nothing. -/
theorem process_throws (h : a.throws s m) : a.process s m = (a.fresh, []) := by
  cases hr : a.receive s m with
  | ok r =>
    rw [throws, hr] at h
    cases h
  | error e => exact process_error hr

/-! ## A restart cuts the mailbox -/

theorem after_restart (h : a.throws (a.after pre) m) :
    a.after (pre ++ m :: post) = a.after post := by
  induction post using List.reverseRecOn with
  | nil => rw [after_concat, process_throws h]; rfl
  | append_singleton post m' ih =>
    rw [← List.cons_append, ← List.append_assoc, after_concat, after_concat, ih]

theorem outputs_restart (h : a.throws (a.after pre) m) :
    a.outputs (pre ++ m :: post) = a.outputs pre ++ a.outputs post := by
  induction post using List.reverseRecOn with
  | nil => rw [outputs_concat, process_throws h]; rfl
  | append_singleton post m' ih =>
    rw [← List.cons_append, ← List.append_assoc, outputs_concat, outputs_concat, ih,
      after_restart h, List.append_assoc]

/-! ## The last part -/

theorem epoch_concat (a : Actor σ ι ο ε) (ms : List ι) (m : ι) : a.epoch (ms ++ [m]) =
    if a.throws (a.after (a.epoch ms)) m then [] else a.epoch ms ++ [m] := by
  rw [epoch, List.foldl_append]
  rfl

/-- The epoch is all of the mailbox, or it comes after a message whose handler throws. -/
theorem epoch_cut (a : Actor σ ι ο ε) (ms : List ι) : a.epoch ms = ms ∨
    ∃ pre m, ms = pre ++ m :: a.epoch ms ∧ a.throws (a.after pre) m := by
  induction ms using List.reverseRecOn with
  | nil => exact .inl rfl
  | append_singleton ms m ih =>
    have hafter : a.after (a.epoch ms) = a.after ms := by
      rcases ih with hall | ⟨pre, m', hms, hthrows⟩
      · rw [hall]
      · rw [hms, after_restart hthrows, ← hms]
    rw [epoch_concat, hafter]
    split
    · rename_i h
      exact .inr ⟨ms, m, rfl, h⟩
    · rcases ih with hall | ⟨pre, m', hms, hthrows⟩
      · exact .inl (by rw [hall])
      · refine .inr ⟨pre, m', ?_, hthrows⟩
        rw [← List.cons_append, ← List.append_assoc, ← hms]

/-- The actor is what its epoch makes of a fresh one. -/
theorem after_epoch (a : Actor σ ι ο ε) (ms : List ι) : a.after (a.epoch ms) = a.after ms := by
  rcases a.epoch_cut ms with hall | ⟨pre, m, hms, hthrows⟩
  · rw [hall]
  · rw [hms, after_restart hthrows, ← hms]

/-- What was sent in the epoch was sent last. -/
theorem outputs_epoch (a : Actor σ ι ο ε) (ms : List ι) :
    ∃ os, a.outputs ms = os ++ a.outputs (a.epoch ms) := by
  rcases a.epoch_cut ms with hall | ⟨pre, m, hms, hthrows⟩
  · exact ⟨[], by rw [hall]; rfl⟩
  · exact ⟨a.outputs pre, by rw [← outputs_restart hthrows, ← hms]⟩

/-- No handler throws in an epoch. -/
theorem always_epoch (a : Actor σ ι ο ε) (ms : List ι) :
    Always (fun pre m => a.throws (a.after pre) m = false) (a.epoch ms) := by
  induction ms using List.reverseRecOn with
  | nil => exact Always.nil
  | append_singleton ms m ih =>
    rw [epoch_concat]
    split
    · exact Always.nil
    · rename_i h
      exact Always.concat.2 ⟨ih, Bool.eq_false_iff.2 h⟩

end Actor
