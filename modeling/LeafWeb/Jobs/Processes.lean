import LeafWeb.Jobs.Store
import LeafWeb.Lib.Transition

/-! Processes over one job table, with a step for each time they take the store's lock. -/

namespace LeafWeb.Jobs

open Lib Function

structure SweptRow where
  jobId : String
  closed : Bool
  deriving DecidableEq

inductive Task
  -- Where a process stands in `_reap_orphans_once` (in `_redispatch_record` of one of its rows),
  -- `_retry_or_finish`, `mark_job_closed` or `close_tenant_jobs`.
  | idle
  | sweeping (rows : List SweptRow)
  | exhausted (jobId : String) (attempt : ℤ) (rows : List SweptRow)
  | unrecoverable (jobId : String) (rows : List SweptRow)
  | releasing (l : Release)
  | finishing (jobId workerId : String) (error : JobError) (provenance : Provenance)
  | flagging (jobId : String)
  | closing (now : ℤ) (jobIds : List String)
  deriving DecidableEq

structure State where
  jobs : JobTable
  tasks : ℕ → Task

def State.empty : State := ⟨.empty, fun _ => .idle⟩

structure Submission where
  (jobId tenantId : String)
  (apsLive receiptTool : Bool)
  recovery : Recovery

inductive Event
  | submit (job : Submission) (now : ℤ)
  | claim (jobId workerId : String) (now : ℤ)
  | heartbeat (jobId workerId : String) (progress : Option String) (now : ℤ)
  | callback (jobId : String) (cb : Callback) (now : ℤ)
  | deliver (jobId : String) (now : ℤ)
  | sweep (process : ℕ) (began now : ℤ)
  | retryOrFinish (process : ℕ) (jobId workerId : String) (error : JobError)
      (provenance : Provenance) (now : ℤ)
  | markClosed (process : ℕ) (jobId : String) (now : ℤ)
  | closeTenant (process : ℕ) (tenantId : String) (now : ℤ)
  | resume (process : ℕ) (now : ℤ)

def Event.now : Event → ℤ
  | .submit _ now => now
  | .claim _ _ now => now
  | .heartbeat _ _ _ now => now
  | .callback _ _ now => now
  | .deliver _ now => now
  | .sweep _ _ now => now
  | .retryOrFinish _ _ _ _ _ now => now
  | .markClosed _ _ now => now
  | .closeTenant _ _ now => now
  | .resume _ now => now

inductive Answer
  | claimed (attempt : Option ℤ)
  | beat (alive : Bool)
  | answered (answer : CallbackAnswer)
  | raised (message : String)
  | delivered (stamp : Option ℤ)
  | done
  deriving DecidableEq

def Submission.row (j : Submission) (now : ℤ) : JobRow where
  jobId := j.jobId
  tenantId := j.tenantId
  apsLive := j.apsLive
  receiptTool := j.receiptTool
  recovery := j.recovery
  status := .submitted
  progress := "queued"
  updatedAt := now
  result := none
  error := none
  attempt := 0
  leaseOwner := none
  leaseExpiresAt := none
  provenance := none
  terminalFingerprint := none

variable (cfg : Config)

def failure (error : JobError) (provenance : Option Provenance) (workerId : Option String) : Callback :=
  ⟨⟨.failed, none, some error, provenance⟩, workerId, false⟩

def sessionClosed : Callback := failure ⟨"INTERNAL", "orphaned: session closed (tab-close)", true⟩ none none

def attemptsExhausted (attempt : ℤ) : Callback :=
  failure ⟨"TIMEOUT", "job exhausted its delivery attempts", false⟩
    (some ⟨some attempt, some "unknown", none, none, none, none, "failure: attempt limit exhausted"⟩)
    none

def missingContext : Callback :=
  failure ⟨"INTERNAL", "cannot recover job: missing execution context", false⟩ none none

def reclaimable (began now : ℤ) (r : JobRow) : Bool :=
  !r.status.isTerminal && (r.updatedAt < began - cfg.heartbeatStale ||
    r.progress = closedProgress || r.leaseExpiresAt.any (· < now))

def sweptRows (jobs : JobTable) (began now : ℤ) : List SweptRow :=
  (jobs.rows.filter (reclaimable cfg began now)).map fun r =>
    ⟨r.jobId, r.progress = closedProgress⟩

def redispatch (record : Option JobRow) (rows : List SweptRow) : Task :=
  -- The part of `_redispatch_record` that follows from its `get_job`. A record that cannot be read
  -- ends the sweep.
  match record with
  | none => .sweeping rows
  | some r =>
    if r.recovery = .unreadable then .idle
    else if r.status.isTerminal then .sweeping rows
    else if maxAttempts cfg ≤ r.attempt ∧ r.recovery ≠ .nativeRemote then
      .exhausted r.jobId r.attempt rows
    else if r.recovery = .missingContext then .unrecoverable r.jobId rows
    else .sweeping rows

def retryOrFinish (record : Option JobRow) (workerId : String) (error : JobError)
    (provenance : Provenance) (now : ℤ) : Task :=
  match record with
  | none => .idle
  | some r =>
    if r.recovery = .unreadable ∨ workerId = "" ∨ ¬ heldBy workerId now r then .idle
    else if error.retryable ∧ r.attempt < maxAttempts cfg then
      .releasing ⟨r.jobId, workerId, r.attempt, now, error, provenance⟩
    else .finishing r.jobId workerId error provenance

def tenantInFlight (jobs : JobTable) (tenantId : String) : List String :=
  (jobs.rows.filter fun r => r.tenantId = tenantId && !r.status.isTerminal).map (·.jobId)

structure Advance where
  answer : Answer
  jobs : JobTable
  task : Task

def call (jobs : JobTable) (jobId : String) (cb : Callback) (allowClosed : Bool) (now : ℤ)
    (next : Task) : Advance :=
  -- A callback inside a task; if it raises, the task ends.
  match completeCallback cfg jobs jobId cb allowClosed now with
  | .ok (answer, jobs') => ⟨.answered answer, jobs', next⟩
  | .error message => ⟨.raised message, jobs, .idle⟩

def advance (jobs : JobTable) (now : ℤ) : Task → Advance
  | .idle => ⟨.done, jobs, .idle⟩
  | .sweeping [] => ⟨.done, jobs, .idle⟩
  | .sweeping (row :: rows) =>
    if row.closed then call cfg jobs row.jobId sessionClosed true now (.sweeping rows)
    else ⟨.done, jobs, redispatch cfg (jobs.find row.jobId) rows⟩
  | .exhausted jobId attempt rows =>
    call cfg jobs jobId (attemptsExhausted attempt) false now (.sweeping rows)
  | .unrecoverable jobId rows => call cfg jobs jobId missingContext false now (.sweeping rows)
  | .releasing l => ⟨.done, (releaseForRetry jobs l).2, .idle⟩
  | .finishing jobId workerId error provenance =>
    call cfg jobs jobId (failure error (some provenance) (some workerId)) false now .idle
  | .flagging jobId => ⟨.done, flagClosed jobs jobId now, .idle⟩
  | .closing _ [] => ⟨.done, jobs, .idle⟩
  | .closing stamp (jobId :: jobIds) =>
    ⟨.done, closeRow jobs jobId stamp, .closing stamp jobIds⟩

def State.begin (s : State) (process : ℕ) (task : Task) : State :=
  { s with tasks := update s.tasks process task }

def flagTask (record : Option JobRow) (jobId : String) : Task :=
  if record.any (fun r => !r.status.isTerminal) then .flagging jobId else .idle

def step (s : State) : Event → Answer × State
  | .submit job now => (.done, { s with jobs := (s.jobs.insert (job.row now)).getD s.jobs })
  | .claim jobId workerId now =>
    let (attempt, jobs) := claimLease cfg s.jobs jobId workerId now
    (.claimed attempt, { s with jobs := jobs })
  | .heartbeat jobId workerId progress now =>
    let (alive, jobs) := heartbeatLease cfg s.jobs jobId workerId progress now
    (.beat alive, { s with jobs := jobs })
  | .callback jobId cb now =>
    let a := call cfg s.jobs jobId cb false now .idle
    (a.answer, { s with jobs := a.jobs })
  | .deliver jobId now =>
    let (stamp, jobs) := recordFirstDelivery s.jobs jobId now
    (.delivered stamp, { s with jobs := jobs })
  | .sweep process began now =>
    (.done, s.begin process (.sweeping (sweptRows cfg s.jobs began now)))
  | .retryOrFinish process jobId workerId error provenance now =>
    (.done, s.begin process (retryOrFinish cfg (s.jobs.find jobId) workerId error provenance now))
  | .markClosed process jobId _ =>
    (.done, s.begin process (flagTask (s.jobs.find jobId) jobId))
  | .closeTenant process tenantId now =>
    (.done, s.begin process (.closing now (tenantInFlight s.jobs tenantId)))
  | .resume process now =>
    let a := advance cfg s.jobs now (s.tasks process)
    (a.answer, { jobs := a.jobs, tasks := update s.tasks process a.task })

end LeafWeb.Jobs
