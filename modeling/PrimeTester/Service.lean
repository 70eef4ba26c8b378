import Mathlib.Data.Nat.Prime.Defs
import PrimeTester.Endpoints
import PrimeTester.Lib.Simulation

/-!
# The service that the program is meant to be

What clients are told to expect, without actors, workers and messages: a job for each id, with its
number and a status that only rises, and a set of numbers whose results can be read. The labels are
the exchanges with the clients. Jobs advance and results are published at any time and
independently of each other, so a redirect may come before the result it leads to.

`coherent` says what a client can rely on from one exchange to the next ones (`Exchange.Follows`)
and what an exchange presupposes of the earlier ones (`Exchange.Grounded`).
-/

namespace PrimeTester

/-- What a client asks for. -/
inductive Ask where
  | createTask (resource : CreateTaskResource)
  | getStatus (taskId : Long)
  | getResult (number : String)

/-- A request of a client, with the response to it. An exception in place of the response leaves the
client without one. -/
inductive Exchange where
  | created (resource : CreateTaskResource) (response : Except Fault (Response TaskStatusResource))
  | status (taskId : Long) (response : Except Fault (Response TaskStatusResource))
  | result (number : String) (response : Response ResultResource)

def Exchange.ask : Exchange → Ask
  | .created resource _ => .createTask resource
  | .status taskId _ => .getStatus taskId
  | .result number _ => .getResult number

/-- What an id stands for. -/
structure Job where
  number : String
  status : Status

@[ext] structure Service where
  jobs : Long → Option Job
  ready : String → Prop

namespace Service

/-- No jobs and no results. -/
def init : Service := ⟨fun _ => none, fun _ => False⟩

/-- What is to be answered about a number: `0` and `1` count as primes, and a composite comes with
its least prime factor. -/
def answer (number : String) : ResultResource where
  number := number
  prime := decide (decimalValue number ≤ 1 ∨ (decimalValue number).Prime)
  divider := if decimalValue number ≤ 1 ∨ (decimalValue number).Prime then none
    else some (toString (decimalValue number).minFac)

/-- What is to be answered about an id. -/
def respond (v : Service) (i : Long) : Response TaskStatusResource :=
  match v.jobs i with
  | none => .notFound
  | some ⟨number, .FINISHED⟩ => .seeOther ("/api/results/" ++ number)
  | some ⟨number, status⟩ => .ok ⟨i, some number, .ofActor status⟩

/-- The id `i` stands for the job. -/
def put (v : Service) (i : Long) (job : Job) : Service :=
  { v with jobs := Function.update v.jobs i (some job) }

/-- One exchange, or a change that no client sees. -/
inductive Step : Service → Option Exchange → Service → Prop
  | create {v : Service} {i : Long} (r : CreateTaskResource) (hnew : v.jobs i = none) :
    Step v (some (.created r (.ok (.ok ⟨i, some r.number, .QUEUED⟩)))) (v.put i ⟨r.number, .QUEUED⟩)
  | status (v : Service) (i : Long) : Step v (some (.status i (.ok (v.respond i)))) v
  | result {v : Service} {k : String} (hk : v.ready k) :
    Step v (some (.result k (.ok (answer k)))) v
  | noResult {v : Service} {k : String} (hk : ¬ v.ready k) :
    Step v (some (.result k .notFound)) v
  | advance {v : Service} {i : Long} {job : Job} {status : Status} (hi : v.jobs i = some job)
    (hlt : job.status < status) : Step v none (v.put i ⟨job.number, status⟩)
  | publish {v : Service} {i : Long} {job : Job} (hi : v.jobs i = some job) :
    Step v none { v with ready := fun k => k = job.number ∨ v.ready k }

/-- The service as a specification. -/
def system : LTS Service (Option Exchange) := ⟨init, Step⟩

end Service

/-! ## What clients can rely on -/

namespace Exchange

/-- The response shows the job with this number, with this status or a later one. -/
def Shows (i : Long) (number : String) (status : Status)
    (response : Except Fault (Response TaskStatusResource)) : Prop :=
  (∃ status', status ≤ status' ∧ status' ≠ .FINISHED ∧
    response = .ok (.ok ⟨i, some number, .ofActor status'⟩)) ∨
  response = .ok (.seeOther ("/api/results/" ++ number))

/-- How an exchange restricts those after it: an id is not given out again, it keeps its number, its
status does not go back, and a result stays as it is. -/
def Follows : Exchange → Exchange → Prop
  | .created _ (.ok (.ok task)), .created _ (.ok (.ok task')) => task'.taskId ≠ task.taskId
  | .created r (.ok (.ok task)), .status i response =>
    i = task.taskId → Shows i r.number .QUEUED response
  | .status i (.ok (.ok task)), .status i' response =>
    i' = i → ∃ number, task.number = some number ∧ Shows i number task.status.actorStatus response
  | .status i (.ok (.seeOther location)), .status i' response =>
    i' = i → response = .ok (.seeOther location)
  | .result k (.ok resource), .result k' response => k' = k → response = .ok resource
  | _, _ => True

/-- What an exchange presupposes: a POST is answered with an id, an id that is known was given out
before, and a number with a result was posted before, and its result is right. -/
def Grounded (os : List Exchange) : Exchange → Prop
  | .created r response => ∃ i, response = .ok (.ok ⟨i, some r.number, .QUEUED⟩)
  | .status i response => response = .ok .notFound ∨
    ∃ r task, .created r (.ok (.ok task)) ∈ os ∧ task.taskId = i ∧ Shows i r.number .QUEUED response
  | .result k response => response = .notFound ∨
    response = .ok (Service.answer k) ∧ ∃ r task, .created r task ∈ os ∧ r.number = k

/-- What an exchange leaves behind. -/
def Known (v : Service) : Exchange → Prop
  | .created r (.ok (.ok task)) => ∃ status, v.jobs task.taskId = some ⟨r.number, status⟩
  | .status i (.ok (.ok task)) => ∃ number status, task.number = some number ∧
    v.jobs i = some ⟨number, status⟩ ∧ task.status.actorStatus ≤ status
  | .status i (.ok (.seeOther location)) => ∃ number, v.jobs i = some ⟨number, .FINISHED⟩ ∧
    location = "/api/results/" ++ number
  | .result k (.ok resource) => v.ready k ∧ resource = Service.answer k
  | _ => True

end Exchange

namespace Service

variable {v v' : Service} {o : Option Exchange}

/-- A job keeps its number, and its status does not go back. -/
theorem Step.job (hs : Step v o v') {i : Long} {number : String} {status : Status}
    (hi : v.jobs i = some ⟨number, status⟩) :
    ∃ status', v'.jobs i = some ⟨number, status'⟩ ∧ status ≤ status' := by
  cases hs with
  | @create i' r hnew =>
    have hne : i ≠ i' := by
      rintro rfl
      rw [hnew] at hi
      cases hi
    exact ⟨status, (Function.update_of_ne hne ..).trans hi, le_refl _⟩
  | @advance i' job status' hi' hlt =>
    by_cases hii : i = i'
    · subst hii
      rw [hi] at hi'
      cases hi'
      exact ⟨status', Function.update_self .., hlt.le⟩
    · exact ⟨status, (Function.update_of_ne hii ..).trans hi, le_refl _⟩
  | _ => exact ⟨status, hi, le_refl _⟩

/-- A result stays. -/
theorem Step.ready (hs : Step v o v') {k : String} (hk : v.ready k) : v'.ready k := by
  cases hs with
  | publish hi => exact .inr hk
  | _ => exact hk

/-- What is shown of a job. -/
theorem respond_job {i : Long} {number : String} {status : Status}
    (hi : v.jobs i = some ⟨number, status⟩) :
    status ≠ .FINISHED ∧ v.respond i = .ok ⟨i, some number, .ofActor status⟩ ∨
      status = .FINISHED ∧ v.respond i = .seeOther ("/api/results/" ++ number) := by
  rw [Service.respond, hi]
  cases status with
  | FINISHED => exact .inr ⟨rfl, rfl⟩
  | _ => exact .inl ⟨by decide, rfl⟩

/-- A job is shown with its number and at least the status that is known. -/
theorem shows_job {i : Long} {number : String} {status status' : Status}
    (hi : v.jobs i = some ⟨number, status'⟩) (hle : status ≤ status') :
    Exchange.Shows i number status (.ok (v.respond i)) := by
  rcases respond_job hi with ⟨hne, hresponse⟩ | ⟨-, hresponse⟩
  · exact .inl ⟨status', hle, hne, by rw [hresponse]⟩
  · exact .inr (by rw [hresponse])

/-- No step takes away what an exchange has left behind. -/
theorem Step.known (hs : Step v o v') {x : Exchange} (h : x.Known v) : x.Known v' := by
  cases x with
  | created r response =>
    obtain _ | task | _ | _ | _ := response
    · trivial
    · obtain ⟨status, hjob⟩ := h
      obtain ⟨status', hjob', -⟩ := hs.job hjob
      exact ⟨status', hjob'⟩
    all_goals trivial
  | status i response =>
    obtain _ | task | location | _ | _ := response
    · trivial
    · obtain ⟨number, status, hnumber, hjob, hle⟩ := h
      obtain ⟨status', hjob', hle'⟩ := hs.job hjob
      exact ⟨number, status', hnumber, hjob', hle.trans hle'⟩
    · obtain ⟨number, hjob, hlocation⟩ := h
      obtain ⟨status', hjob', hle⟩ := hs.job hjob
      rw [le_antisymm (Status.le_FINISHED status') hle] at hjob'
      exact ⟨number, hjob', hlocation⟩
    all_goals trivial
  | result k response =>
    cases response with
    | ok resource => exact ⟨hs.ready h.1, h.2⟩
    | _ => trivial

/-- An exchange leaves behind what it says. -/
theorem Step.gain {x : Exchange} (hs : Step v (some x) v') : x.Known v' := by
  cases hs with
  | create r hnew => exact ⟨_, Function.update_self ..⟩
  | status i =>
    cases hjob : v.jobs i with
    | none =>
      rw [Service.respond, hjob]
      trivial
    | some job =>
      rcases respond_job hjob with ⟨-, hresponse⟩ | ⟨hfinished, hresponse⟩
      · rw [hresponse]
        exact ⟨_, _, rfl, hjob, by rw [TaskStatusResource.Status.actorStatus_ofActor]⟩
      · rw [hresponse]
        exact ⟨_, hfinished ▸ hjob, rfl⟩
  | result hk => exact ⟨hk, rfl⟩
  | noResult hk => trivial

/-- What is left behind restricts the exchanges after it. -/
theorem Step.restrict {x y : Exchange} (hs : Step v (some y) v') (h : x.Known v) : x.Follows y := by
  cases x with
  | created r response =>
    obtain _ | task | _ | _ | _ := response
    · trivial
    · obtain ⟨status, hjob⟩ := h
      cases hs with
      | create r' hnew =>
        rintro rfl
        rw [hnew] at hjob
        cases hjob
      | status i =>
        rintro rfl
        exact shows_job hjob (Status.QUEUED_le status)
      | _ => trivial
    all_goals trivial
  | status i response =>
    obtain _ | task | location | _ | _ := response
    · trivial
    · obtain ⟨number, status, hnumber, hjob, hle⟩ := h
      cases hs with
      | status i' =>
        rintro rfl
        exact ⟨number, hnumber, shows_job hjob hle⟩
      | _ => trivial
    · obtain ⟨number, hjob, rfl⟩ := h
      cases hs with
      | status i' =>
        rintro rfl
        rcases respond_job hjob with ⟨hne, -⟩ | ⟨-, hresponse⟩
        · exact absurd rfl hne
        · rw [hresponse]
      | _ => trivial
    all_goals trivial
  | result k response =>
    cases response with
    | ok resource =>
      obtain ⟨hk, rfl⟩ := h
      cases hs with
      | result hk' =>
        rintro rfl
        rfl
      | noResult hk' =>
        rintro rfl
        exact absurd hk hk'
      | _ => trivial
    | _ => trivial

/-- What the jobs and results of a state go back to. -/
structure Origin (os : List Exchange) (v : Service) : Prop where
  job : ∀ i number status, v.jobs i = some ⟨number, status⟩ →
    ∃ r task, .created r (.ok (.ok task)) ∈ os ∧ r.number = number ∧ task.taskId = i
  ready : ∀ k, v.ready k → ∃ r task, .created r task ∈ os ∧ r.number = k

theorem Origin.append {os : List Exchange} (h : Origin os v) (os' : List Exchange) :
    Origin (os ++ os') v where
  job i number status hi := by
    obtain ⟨r, task, hr, hnumber, hid⟩ := h.job i number status hi
    exact ⟨r, task, List.mem_append_left _ hr, hnumber, hid⟩
  ready k hk := by
    obtain ⟨r, task, hr, hnumber⟩ := h.ready k hk
    exact ⟨r, task, List.mem_append_left _ hr, hnumber⟩

/-- Jobs come from POSTs, and results from jobs. -/
theorem Step.origin {os : List Exchange} (hs : Step v o v') (h : Origin os v) :
    Origin (os ++ o.toList) v' := by
  have hold := h.append o.toList
  cases hs with
  | @create i r hnew =>
    refine ⟨fun i' number status hi => ?_, hold.ready⟩
    by_cases hii : i' = i
    · subst hii
      have hjob := (Function.update_self (f := v.jobs) ..).symm.trans hi
      cases hjob
      exact ⟨r, ⟨i', some r.number, .QUEUED⟩, by simp, rfl, rfl⟩
    · exact hold.job i' number status ((Function.update_of_ne hii ..).symm.trans hi)
  | @advance i job status' hi' hlt =>
    refine ⟨fun i' number status hi => ?_, hold.ready⟩
    by_cases hii : i' = i
    · subst hii
      have hjob := (Function.update_self (f := v.jobs) ..).symm.trans hi
      cases hjob
      exact hold.job i' _ _ hi'
    · exact hold.job i' number status ((Function.update_of_ne hii ..).symm.trans hi)
  | @publish i job hi =>
    refine ⟨hold.job, fun k hk => ?_⟩
    rcases hk with rfl | hk
    · obtain ⟨r, task, hr, hnumber, -⟩ := hold.job i _ _ hi
      exact ⟨r, _, hr, hnumber⟩
    · exact hold.ready k hk
  | _ => exact hold

/-- An exchange says only what goes back to a POST. -/
theorem Step.grounded {os : List Exchange} {x : Exchange} (hs : Step v (some x) v')
    (h : Origin os v) : x.Grounded os := by
  cases hs with
  | @create i r hnew => exact ⟨i, rfl⟩
  | status i =>
    cases hjob : v.jobs i with
    | none => exact .inl (by rw [Service.respond, hjob])
    | some job =>
      obtain ⟨r, task, hr, hnumber, hid⟩ := h.job i _ _ hjob
      exact .inr ⟨r, task, hr, hid, hnumber ▸ shows_job hjob (Status.QUEUED_le _)⟩
  | @result k hk => exact .inr ⟨rfl, h.ready k hk⟩
  | noResult hk => exact .inl rfl

/-- **What clients can rely on**, in every run of the service. -/
theorem coherent {os : List Exchange} (h : system.Shows os v) :
    os.Pairwise Exchange.Follows ∧ Always Exchange.Grounded os := by
  refine ⟨(h.pairwise (K := fun v x => x.Known v) (fun _ _ _ _ hs hx => Step.known hs hx)
    (fun _ _ _ hs => Step.gain hs) (fun _ _ _ _ hs hx => Step.restrict hs hx)).1, ?_⟩
  refine (h.all (I := Origin) ⟨fun i number status hi => ?_, fun k hk => ?_⟩ ?_).2
  · cases hi
  · cases hk
  · intro os v o v' _ hI hs
    refine ⟨Step.origin hs hI, fun x hx => ?_⟩
    subst hx
    exact Step.grounded hs hI

end Service

end PrimeTester
