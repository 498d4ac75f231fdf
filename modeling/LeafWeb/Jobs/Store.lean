import LeafWeb.Lib.Procedure
import LeafWeb.Lib.Table
import LeafWeb.Lib.Text

/-! The SQLite job table and its statements, each in a section of the store's lock. Instants are
microseconds. -/

namespace LeafWeb.Jobs

open Lib

inductive JobStatus
  | submitted
  | running
  | complete
  | failed
  deriving DecidableEq

def JobStatus.isTerminal : JobStatus → Bool
  | .complete | .failed => true
  | .submitted | .running => false

structure JobError where
  (errorCode message : String)
  retryable : Bool
  deriving DecidableEq

structure CloudFailure where
  -- `meaningful` is whether the failure is a text or a code with a message, not blank.
  attempt : Option ℤ
  executionPath : Option String
  meaningful : Bool
  deriving DecidableEq

structure Provenance where
  attempt : Option ℤ
  executionPath : Option String
  fallback : Option Bool
  fallbackReason : Option String
  cloudFailure : Option CloudFailure
  clientDeliveredAt : Option ℤ
  others : String
  deriving DecidableEq

structure ResultEnv where
  ok : Bool
  executionProvenance : Option Provenance
  others : String

inductive Recovery
  -- What the recovery of a job finds in its `execution_json`.
  | redispatched
  | missingContext
  | nativeRemote
  | unreadable
  deriving DecidableEq

structure JobRow where
  (jobId tenantId : String)
  (apsLive receiptTool : Bool)
  recovery : Recovery
  status : JobStatus
  progress : String
  updatedAt : ℤ
  result : Option ResultEnv
  error : Option JobError
  attempt : ℤ
  leaseOwner : Option String
  leaseExpiresAt : Option ℤ
  provenance : Option Provenance
  terminalFingerprint : Option String

structure Outcome where
  status : JobStatus
  result : Option ResultEnv
  error : Option JobError
  provenance : Option Provenance

structure Config where
  -- The environment of the job functions: their settings, the digest of a terminal outcome, the
  -- checks of the completion and capability contexts, and those of the tools with a receipt.
  (jobMaxAttempts jobLease heartbeatStale : ℤ)
  terminalFingerprint : Outcome → String
  (contextCheck receiptCheck : JobRow → Outcome → Except String Unit)

def closedProgress : String := "closed"

abbrev JobTable := Table JobRow.jobId

variable (cfg : Config)

def maxAttempts : ℤ := max 1 cfg.jobMaxAttempts

def leaseDuration : ℤ := max 1000000 cfg.jobLease

def updateJob (jobs : JobTable) (jobId : String) (cond : JobRow → Bool) (f : JobRow → JobRow)
    (hf : ∀ r, (f r).jobId = r.jobId) : Bool × JobTable :=
  if (jobs.find jobId).any cond then (true, jobs.modify jobId f hf) else (false, jobs)

def claimable (now : ℤ) (r : JobRow) : Bool :=
  (r.status = .submitted || (r.status = .running && r.leaseExpiresAt.all (· ≤ now))) &&
    r.progress ≠ closedProgress && r.attempt < maxAttempts cfg

def JobRow.claim (workerId : String) (now : ℤ) (r : JobRow) : JobRow :=
  { r with status := .running, progress := "running", updatedAt := now, attempt := r.attempt + 1,
           leaseOwner := some workerId, leaseExpiresAt := some (now + leaseDuration cfg) }

lemma JobRow.claim_jobId (workerId : String) (now : ℤ) (r : JobRow) :
    (r.claim cfg workerId now).jobId = r.jobId := rfl

def claimLease (jobs : JobTable) (jobId workerId : String) (now : ℤ) : Option ℤ × JobTable :=
  let (claimed, jobs') := updateJob jobs jobId (claimable cfg now) (JobRow.claim cfg workerId now)
    (JobRow.claim_jobId cfg workerId now)
  (if claimed then (jobs'.find jobId).map (·.attempt) else none, jobs')

def heldBy (workerId : String) (now : ℤ) (r : JobRow) : Bool :=
  r.leaseOwner = some workerId && r.leaseExpiresAt.any (now ≤ ·)

def JobRow.beat (progress : Option String) (now : ℤ) (r : JobRow) : JobRow :=
  { r with updatedAt := now, leaseExpiresAt := some (now + leaseDuration cfg),
           progress := progress.getD r.progress }

lemma JobRow.beat_jobId (progress : Option String) (now : ℤ) (r : JobRow) :
    (r.beat cfg progress now).jobId = r.jobId := rfl

def heartbeatLease (jobs : JobTable) (jobId workerId : String) (progress : Option String)
    (now : ℤ) : Bool × JobTable :=
  updateJob jobs jobId (fun r => r.status = .running && heldBy workerId now r)
    (JobRow.beat cfg progress now) (JobRow.beat_jobId cfg progress now)

structure Callback where
  outcome : Outcome
  workerId : Option String
  nativeOwner : Bool

inductive CallbackAnswer
  | applied
  | duplicate
  | conflict
  | notOwner
  | missing
  deriving DecidableEq

def validateSuccess (result : Option ResultEnv) (error : Option JobError)
    (provenance : Option Provenance) (nativeOwner : Bool) : Except String Unit :=
  if ¬ result.any (·.ok) then .error "successful terminal callback requires result.ok true"
  else if error.isSome then .error "successful terminal callback cannot include terminal error"
  else
    match provenance with
    | none => .error "successful terminal callback requires provenance"
    | some p =>
      if p.attempt.all (· < 1) then
        .error "successful terminal provenance requires a positive attempt"
      else if p.executionPath = some "native-worker" ∧ ¬ nativeOwner then
        .error "native worker provenance requires the owning job adapter"
      else if p.executionPath ≠ some "native-worker" ∧ p.executionPath ≠ some "cloud" ∧
          p.executionPath ≠ some "local" then
        .error "successful terminal provenance requires cloud or local execution_path"
      else if (result.bind (·.executionProvenance)).any (· ≠ p) then
        .error "result execution_provenance contradicts terminal provenance"
      else .ok ()

def validateCallback (cb : Callback) : Except String Unit :=
  match cb.outcome.status with
  | .submitted | .running => .error "terminal status must be complete or failed"
  | .failed => .ok ()
  | .complete =>
    validateSuccess cb.outcome.result cb.outcome.error cb.outcome.provenance cb.nativeOwner

def fallbackExplained (attempt : ℤ) (p : Provenance) : Bool :=
  p.fallbackReason.any (fun s => !isBlank s) && p.cloudFailure.any fun f =>
    f.attempt = some attempt && f.executionPath = some "cloud" && f.meaningful

def validatePath (r : JobRow) (o : Outcome) (p : Provenance) : Except String Unit :=
  if r.receiptTool then cfg.receiptCheck r o
  else if ¬ r.apsLive ∧ (p.executionPath ≠ some "local" ∨ p.fallback = some true) then
    .error "non-APS success requires a non-fallback local execution_path"
  else .ok ()

def validateProvenance (r : JobRow) (o : Outcome) (p : Provenance) : Except String Unit :=
  let fallback := p.fallback = some true
  if p.attempt ≠ some r.attempt then
    .error "successful terminal provenance attempt does not match durable attempt"
  else if r.apsLive ∧ p.executionPath = some "local" ∧ ¬ fallback then
    .error "APS-live local success must declare fallback"
  else if r.apsLive ∧ p.executionPath = some "cloud" ∧ fallback then
    .error "cloud success cannot declare local fallback"
  else do
    validatePath cfg r o p
    if fallback ∧ ¬ fallbackExplained r.attempt p then
      .error "fallback success requires a reason and matching meaningful cloud_failure"
    else .ok ()

def validateTerminalContext (r : JobRow) (o : Outcome) : Except String Unit := do
  cfg.contextCheck r o
  match o.status, o.provenance with
  | .complete, some p => validateProvenance cfg r o p
  | .complete, none => .error "AssertionError"
  | _, some p =>
    if p.attempt.any (· ≠ r.attempt) then
      .error "terminal failure provenance attempt does not match durable attempt"
    else .ok ()
  | _, none => .ok ()

def applicable (workerId : Option String) (allowClosed : Bool) (now : ℤ) (r : JobRow) : Bool :=
  !r.status.isTerminal && (allowClosed || r.progress ≠ closedProgress) && workerId.all (fun w => heldBy w now r)

def JobRow.finish (o : Outcome) (now : ℤ) (r : JobRow) : JobRow :=
  { r with status := o.status, progress := if o.status = .complete then "done" else "error",
           updatedAt := now, result := o.result, error := o.error, provenance := o.provenance,
           terminalFingerprint := some (cfg.terminalFingerprint o), leaseOwner := none,
           leaseExpiresAt := none }

lemma JobRow.finish_jobId (o : Outcome) (now : ℤ) (r : JobRow) : (r.finish cfg o now).jobId = r.jobId := rfl

def JobRow.touch (now : ℤ) (r : JobRow) : JobRow := { r with updatedAt := now }

lemma JobRow.touch_jobId (now : ℤ) (r : JobRow) : (r.touch now).jobId = r.jobId := rfl

def completeCallback (jobs : JobTable) (jobId : String) (cb : Callback) (allowClosed : Bool)
    (now : ℤ) : Except String (CallbackAnswer × JobTable) := do
  validateCallback cb
  match jobs.find jobId with
  | none => .ok (.missing, jobs)
  | some r => do
    validateTerminalContext cfg r cb.outcome
    if applicable cb.workerId allowClosed now r then
      .ok (.applied, jobs.modify jobId (JobRow.finish cfg cb.outcome now) (JobRow.finish_jobId cfg cb.outcome now))
    else if ¬ r.status.isTerminal then .ok (.notOwner, jobs)
    else if r.terminalFingerprint = some (cfg.terminalFingerprint cb.outcome) then
      .ok (.duplicate, jobs)
    else .ok (.conflict, jobs.modify jobId (JobRow.touch now) (JobRow.touch_jobId now))

def noProvenance : Provenance := ⟨none, none, none, none, none, none, ""⟩

def JobRow.deliver (now : ℤ) (r : JobRow) : JobRow :=
  let p := r.provenance.getD noProvenance
  if p.clientDeliveredAt.isSome then r
  else { r with provenance := some { p with clientDeliveredAt := some now } }

lemma JobRow.deliver_jobId (now : ℤ) (r : JobRow) : (r.deliver now).jobId = r.jobId := by
  rw [JobRow.deliver]
  split_ifs <;> rfl

def recordFirstDelivery (jobs : JobTable) (jobId : String) (now : ℤ) : Option ℤ × JobTable :=
  let (_, jobs') := updateJob jobs jobId (fun r => r.status.isTerminal) (JobRow.deliver now)
    (JobRow.deliver_jobId now)
  (((jobs'.find jobId).filter (fun r => r.status.isTerminal)).bind fun r =>
    r.provenance.bind (·.clientDeliveredAt), jobs')

structure Release where
  (jobId workerId : String)
  (attempt now : ℤ)
  error : JobError
  provenance : Provenance
  deriving DecidableEq

def JobRow.release (l : Release) (r : JobRow) : JobRow :=
  { r with status := .submitted, progress := "retrying", updatedAt := l.now, error := some l.error,
           provenance := some l.provenance, leaseOwner := none, leaseExpiresAt := none }

lemma JobRow.release_jobId (l : Release) (r : JobRow) : (r.release l).jobId = r.jobId := rfl

def releaseForRetry (jobs : JobTable) (l : Release) : Bool × JobTable :=
  updateJob jobs l.jobId
    (fun r => r.status = .running && r.attempt = l.attempt && heldBy l.workerId l.now r &&
      r.progress ≠ closedProgress)
    (JobRow.release l) (JobRow.release_jobId l)

def JobRow.close (now : ℤ) (r : JobRow) : JobRow :=
  { r with progress := closedProgress, updatedAt := now, leaseOwner := none, leaseExpiresAt := none }

lemma JobRow.close_jobId (now : ℤ) (r : JobRow) : (r.close now).jobId = r.jobId := rfl

def flagClosed (jobs : JobTable) (jobId : String) (now : ℤ) : JobTable :=
  (updateJob jobs jobId (fun r => !r.status.isTerminal) (JobRow.close now) (JobRow.close_jobId now)).2

def closeRow (jobs : JobTable) (jobId : String) (now : ℤ) : JobTable :=
  -- The write of `close_tenant_jobs`, which does not look at the status again.
  (updateJob jobs jobId (fun _ => true) (JobRow.close now) (JobRow.close_jobId now)).2

end LeafWeb.Jobs
