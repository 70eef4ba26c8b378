import Mathlib.Data.List.Sublists
import PrimeTester.Engine
import PrimeTester.Service

/-!
# What a page displays

A page that has got the id of its task tries to connect, and tries again whenever the connection
breaks. Each attempt may show the start and the end of the task; after an end the page asks for the
result. `Tale` is the record of that, and `Tale.rows` are the rows in the table. A page whose first
connection never breaks tells a `story`, with or without the start of the task (`Sound.story`).
-/

namespace PrimeTester.Engine

open TaskStorage (event)

/-! ## Rows -/

/-- The row of an event about a task. -/
def eventRow (i : Long) : Status → Row
  | .STARTED => display "Calculation STARTED: " (some (.task (event i .STARTED).data)) .info
  | status => display "Calculation Finished: " (some (.task (event i status).data)) .info

def errorRow : Row := display "Got error undefined" none .error

/-- The row of the result, which is the right one. -/
def resultRow (number : String) : Row :=
  display "Got Result " (some (.result (Service.answer number))) .success

section
variable {B : Type} (click : Click B) (i : Long)

theorem dispatch_started : subscribeForNotifications.dispatch click (event i .STARTED) =
    { click with rows := click.rows ++ [eventRow i .STARTED] } := rfl

theorem dispatch_finished : subscribeForNotifications.dispatch click (event i .FINISHED) =
    { click with
      rows := click.rows ++ [eventRow i .FINISHED]
      ajax := click.ajax ++ [.requested i] } := rfl

/-- Handlers of events leave the connection as it is. -/
theorem phase_dispatch (event : OutboundEvent) :
    (subscribeForNotifications.dispatch click event).phase = click.phase := by
  unfold subscribeForNotifications.dispatch
  split <;> rfl

end

/-- What an attempt to connect has shown: nothing before it is open, and then the events. -/
abbrev Attempt := Option (List Status)

def Attempt.statuses (a : Attempt) : List Status := a.getD []

def Attempt.rows (i : Long) : Attempt → List Row
  | none => []
  | some seen => display "connected to SSE" none .info :: seen.map (eventRow i)

/-- What a click has displayed since its task has an id: the attempts to connect that broke, the
current one, and how many results. -/
structure Tale where
  past : List Attempt
  now : Attempt
  results : ℕ

namespace Tale

/-- The rows, from the first one. -/
def rows (number : String) (i : Long) (t : Tale) : List Row :=
  display "Queued task " (some (.task ⟨i, some number, .QUEUED⟩)) .success ::
    (t.past.flatMap (fun a => a.rows i ++ [errorRow]) ++
      (t.now.rows i ++ List.replicate t.results (resultRow number)))

def attempts (t : Tale) : List Attempt := t.past ++ [t.now]

/-- The statuses that are shown, in order. -/
def statuses (t : Tale) : List Status := t.attempts.flatMap Attempt.statuses

/-- Every attempt shows at most the start and the end, in this order, and none goes back behind an
earlier one. -/
structure Sound (t : Tale) : Prop where
  each : ∀ a ∈ t.attempts, a.statuses.Sublist [.STARTED, .FINISHED]
  rising : t.statuses.Pairwise (· ≤ ·)

/-! ## What happens to a tale -/

/-- The connection is open. -/
def connect (t : Tale) : Tale := { t with now := some [] }

/-- An event is displayed. -/
def see (t : Tale) (status : Status) : Tale := { t with now := some (t.now.statuses ++ [status]) }

/-- The connection breaks. -/
def err (t : Tale) : Tale := { t with past := t.past ++ [t.now], now := none }

/-- A result is displayed. -/
def result (t : Tale) : Tale := { t with results := t.results + 1 }

variable {number : String} {i : Long} {t : Tale} {status : Status}

theorem rows_connect (hnow : t.now = none) (hresults : t.results = 0) :
    t.connect.rows number i = t.rows number i ++ [display "connected to SSE" none .info] := by
  simp [rows, connect, hnow, hresults, Attempt.rows]

theorem rows_see {seen : List Status} (hnow : t.now = some seen) (hresults : t.results = 0) :
    (t.see status).rows number i = t.rows number i ++ [eventRow i status] := by
  simp [rows, see, hnow, hresults, Attempt.rows, Attempt.statuses]

theorem rows_err (hresults : t.results = 0) :
    t.err.rows number i = t.rows number i ++ [errorRow] := by
  simp [rows, err, hresults, Attempt.rows]

theorem rows_result : t.result.rows number i = t.rows number i ++ [resultRow number] := by
  simp [rows, result, List.replicate_succ']

theorem statuses_connect (hnow : t.now = none) : t.connect.statuses = t.statuses := by
  simp [statuses, attempts, connect, hnow, Attempt.statuses]

theorem statuses_see : (t.see status).statuses = t.statuses ++ [status] := by
  simp [statuses, attempts, see, Attempt.statuses]

theorem statuses_err : t.err.statuses = t.statuses := by
  simp [statuses, attempts, err, Attempt.statuses]

@[simp] theorem statuses_result : t.result.statuses = t.statuses := rfl

/-- What was shown before the current attempt, or in it. -/
theorem mem_statuses : status ∈ t.statuses ↔
    status ∈ t.past.flatMap Attempt.statuses ∨ status ∈ t.now.statuses := by
  simp [statuses, attempts]

theorem Sound.start : Sound ⟨[], none, 0⟩ where
  each a ha := by
    rw [List.mem_singleton.1 ha]
    exact List.nil_sublist _
  rising := List.Pairwise.nil

theorem Sound.connect (h : t.Sound) (hnow : t.now = none) : t.connect.Sound where
  each a ha := by
    rcases List.mem_append.1 ha with hpast | hlast
    · exact h.each a (List.mem_append_left _ hpast)
    · rw [List.mem_singleton.1 hlast]
      exact List.nil_sublist _
  rising := by
    rw [statuses_connect hnow]
    exact h.rising

theorem Sound.see (h : t.Sound) (hnow : (t.now.statuses ++ [status]).Sublist [.STARTED, .FINISHED])
    (hle : ∀ status' ∈ t.statuses, status' ≤ status) : (t.see status).Sound where
  each a ha := by
    rcases List.mem_append.1 ha with hpast | hlast
    · exact h.each a (List.mem_append_left _ hpast)
    · rw [List.mem_singleton.1 hlast]
      exact hnow
  rising := by
    rw [statuses_see, List.pairwise_append]
    refine ⟨h.rising, List.pairwise_singleton _ _, fun status' hs status'' hlast => ?_⟩
    rw [List.mem_singleton.1 hlast]
    exact hle status' hs

theorem Sound.err (h : t.Sound) : t.err.Sound where
  each a ha := by
    rcases List.mem_append.1 ha with hpast | hlast
    · exact h.each a hpast
    · rw [List.mem_singleton.1 hlast]
      exact List.nil_sublist _
  rising := by
    rw [statuses_err]
    exact h.rising

theorem Sound.result (h : t.Sound) : t.result.Sound := ⟨h.each, h.rising⟩

/-! ## How much is displayed -/

/-- An attempt shows at most two events, and at most one end. -/
theorem Sound.length_le (h : t.Sound) : t.statuses.length ≤ 2 * (t.past.length + 1) ∧
    t.statuses.count .FINISHED ≤ t.past.length + 1 := by
  have hbound (as : List Attempt) (has : ∀ a ∈ as, a.statuses.Sublist [.STARTED, .FINISHED]) :
      (as.flatMap Attempt.statuses).length ≤ 2 * as.length ∧
        (as.flatMap Attempt.statuses).count .FINISHED ≤ as.length := by
    induction as with
    | nil => exact ⟨le_refl _, le_refl _⟩
    | cons a as ih =>
      obtain ⟨hlen, hcount⟩ := ih fun a ha => has a (List.mem_cons_of_mem _ ha)
      have ha := has a List.mem_cons_self
      have halen : a.statuses.length ≤ 2 := ha.length_le
      have hacount : a.statuses.count .FINISHED ≤ 1 := ha.count_le _
      rw [List.flatMap_cons, List.length_append, List.count_append, List.length_cons]
      omega
  have hlen : t.attempts.length = t.past.length + 1 := by simp [attempts]
  rw [← hlen]
  exact hbound t.attempts h.each

/-- Every attempt takes at most two rows apart from its events. -/
theorem length_rows_le : (t.rows number i).length ≤
    2 + 2 * t.past.length + t.statuses.length + t.results := by
  have hattempt (a : Attempt) : (a.rows i).length ≤ a.statuses.length + 1 := by
    cases a with
    | none => exact Nat.zero_le _
    | some seen => exact Nat.succ_le_succ (Nat.le_of_eq (List.length_map _))
  have hpast (as : List Attempt) : (as.flatMap fun a => a.rows i ++ [errorRow]).length ≤
      2 * as.length + (as.flatMap Attempt.statuses).length := by
    induction as with
    | nil => exact le_refl _
    | cons a as ih =>
      have ha := hattempt a
      simp only [List.flatMap_cons, List.length_append, List.length_cons, List.length_nil]
      omega
  have hold := hpast t.past
  have hnow := hattempt t.now
  rw [rows, statuses, attempts, List.flatMap_append, List.flatMap_singleton, List.length_cons,
    List.length_append, List.length_append, List.length_append, List.length_replicate]
  omega

/-- The result is shown when results are counted. -/
theorem resultRow_mem : resultRow number ∈ t.rows number i ↔ 0 < t.results := by
  have hattempt (a : Attempt) : resultRow number ∉ a.rows i := by
    cases a with
    | none => exact List.not_mem_nil
    | some seen =>
      intro h
      rcases List.mem_cons.1 h with heq | hmem
      · simp [resultRow, display] at heq
      · obtain ⟨status, -, heq⟩ := List.mem_map.1 hmem
        cases status <;> simp [resultRow, eventRow, display] at heq
  have hpast : resultRow number ∉ t.past.flatMap fun a => a.rows i ++ [errorRow] := by
    intro h
    obtain ⟨a, -, hmem⟩ := List.mem_flatMap.1 h
    rcases List.mem_append.1 hmem with hrow | herror
    · exact hattempt a hrow
    · simp [resultRow, errorRow, display] at herror
  have hqueued : resultRow number ≠
      display "Queued task " (some (.task ⟨i, some number, .QUEUED⟩)) .success := by
    simp [resultRow, display]
  simp [rows, hqueued, hpast, hattempt, Nat.pos_iff_ne_zero]

/-! ## The story of a connection that never breaks -/

/-- The sequences of events about a task. -/
theorem sublist_events {l : List Status} (h : l.Sublist [.STARTED, .FINISHED]) :
    l = [] ∨ l = [.STARTED] ∨ l = [.FINISHED] ∨ l = [.STARTED, .FINISHED] := by
  have hmem := List.mem_sublists.2 h
  simpa [List.sublists] using hmem

/-- The rows of a click from its beginning to its end. A page that comes late is not told of the
start. -/
def story (number : String) (i : Long) (started : Bool) : List Row :=
  rows number i ⟨[], some (if started then [.STARTED, .FINISHED] else [.FINISHED]), 1⟩

/-- What is shown over a connection that never breaks is the beginning of the story, and after the
end of the task only the result is missing. -/
theorem Sound.story (number : String) (i : Long) (h : t.Sound) (hpast : t.past = [])
    (hresults : t.results ≤ t.statuses.count .FINISHED) :
    ∃ started, t.rows number i <+: story number i started ∧ (.FINISHED ∈ t.statuses →
      t.rows number i ++ List.replicate (1 - t.results) (resultRow number) =
        story number i started) := by
  obtain ⟨past, now, results⟩ := t
  obtain rfl : past = [] := hpast
  have hstatuses : statuses ⟨[], now, results⟩ = now.statuses := by simp [statuses, attempts]
  rw [hstatuses] at hresults ⊢
  have hnow : now.statuses.Sublist [.STARTED, .FINISHED] := h.each now (by simp [attempts])
  cases now with
  | none =>
    obtain rfl : results = 0 := Nat.le_zero.1 hresults
    refine ⟨true, ⟨_, rfl⟩, fun hend => ?_⟩
    cases hend
  | some seen =>
    rcases sublist_events hnow with rfl | rfl | rfl | rfl
    · obtain rfl : results = 0 := Nat.le_zero.1 hresults
      exact ⟨true, ⟨_, rfl⟩, by simp [Attempt.statuses]⟩
    · obtain rfl : results = 0 := Nat.le_zero.1 hresults
      exact ⟨true, ⟨_, rfl⟩, by simp [Attempt.statuses]⟩
    · rcases Nat.le_one_iff_eq_zero_or_eq_one.1 hresults with rfl | rfl
      · exact ⟨false, ⟨_, rfl⟩, fun _ => rfl⟩
      · exact ⟨false, ⟨[], rfl⟩, fun _ => rfl⟩
    · rcases Nat.le_one_iff_eq_zero_or_eq_one.1 hresults with rfl | rfl
      · exact ⟨true, ⟨_, rfl⟩, fun _ => rfl⟩
      · exact ⟨true, ⟨[], rfl⟩, fun _ => rfl⟩

end Tale

end PrimeTester.Engine
