import Mathlib.Algebra.GroupWithZero.Nat
import LeafWeb.Lib.Rotation
import LeafWeb.Lib.Text
import LeafWeb.Lib.Transition

/-! `FairQueue` of `da/queue.py`, drained by the worker threads of `run_all`: a worker takes one step for
the semaphore and one for each section under the lock. -/

namespace LeafWeb.Queue

open Lib

def isTenantId (s : String) : Bool :=
  let safe := fun c : Char => c.isLower || c.isDigit
  match s.toList with
  | [] => false
  | c :: cs => safe c && cs.length ≤ 62 && cs.all fun c => safe c || c == '-'

def validateTenantId (tenantId : String) : Option String :=
  let s := String.ofList ((strip tenantId).toList.map lowerAscii)
  if isTenantId s then some s else none

structure Job where
  (jobId tenantId : String)
  deriving DecidableEq

inductive LogEvent
  | dispatch
  | complete
  deriving DecidableEq

structure LogEntry where
  event : LogEvent
  job : Job
  inflight : ℕ

inductive WorkerPhase
  -- Before `_sem.acquire`, before the picker, in the runner, before `_sem.release` (and whether
  -- the loop goes on after it), and out of the loop.
  | waiting
  | holding
  | running (job : Job)
  | closing (goesOn : Bool)
  | returned
  deriving DecidableEq

structure Worker where
  drain : ℕ
  phase : WorkerPhase

structure FairQueue where
  (ceiling sem : ℕ)
  queue : Rotation String String
  jobs : Dict String Job
  (inflight maxInflight : ℕ)
  log : List LogEntry
  workers : List Worker
  drains : ℕ

inductive RunnerEnd
  | result
  | exception
  | killed
  deriving DecidableEq

inductive QueueEvent
  | enqueue (tenantId jobId : String)
  | runAll (workers : Option ℤ)
  | acquire (worker : ℕ)
  | pick (worker : ℕ)
  | finish (worker : ℕ) (how : RunnerEnd)
  | release (worker : ℕ)

namespace FairQueue

def idle (ceiling : ℕ) : FairQueue := ⟨ceiling, ceiling, .empty, .empty, 0, 0, [], [], 0⟩

def enqueue (q : FairQueue) (tid jobId : String) : FairQueue :=
  { q with
    jobs := q.jobs.set jobId ⟨jobId, tid⟩
    queue := q.queue.enqueue tid jobId }

def pending (q : FairQueue) : ℕ := (q.queue.fifos.rows.map fun r => r.2.length).sum

def nextJobId : Rotation String String → Option String × Rotation String String := Rotation.pick false

def releaseSem (q : FairQueue) : FairQueue := if q.sem < q.ceiling then { q with sem := q.sem + 1 } else q

def setPhase (q : FairQueue) (w : ℕ) (worker : Worker) (phase : WorkerPhase) : FairQueue :=
  { q with workers := q.workers.set w { worker with phase := phase } }

def workerCount (q : FairQueue) (workers : Option ℤ) : ℕ :=
  match workers with
  | some n => n.toNat
  | none => min (max q.pending q.ceiling) 32

def runAll (q : FairQueue) (workers : Option ℤ) : FairQueue :=
  let started := if q.pending = 0 then 0 else q.workerCount workers
  { q with
    workers := q.workers ++ List.replicate started ⟨q.drains, .waiting⟩
    drains := q.drains + 1 }

def dispatch (q : FairQueue) (w : ℕ) (worker : Worker) (job : Job) : FairQueue :=
  let inflight := q.inflight + 1
  setPhase { q with
    inflight := inflight
    maxInflight := max q.maxInflight inflight
    log := q.log ++ [⟨.dispatch, job, inflight⟩] } w worker (.running job)

def pick (q : FairQueue) (w : ℕ) (worker : Worker) : FairQueue :=
  match nextJobId q.queue with
  | (none, queue) => (releaseSem { q with queue }).setPhase w worker .returned
  | (some jobId, queue) =>
    match q.jobs.get jobId with
    | some job => dispatch { q with queue } w worker job
    -- `self._jobs[jid]` raises with the lock released and the slot kept.
    | none => setPhase { q with queue } w worker .returned

def finish (q : FairQueue) (w : ℕ) (worker : Worker) (job : Job) (how : RunnerEnd) : FairQueue :=
  setPhase { q with
    inflight := q.inflight - 1
    log := q.log ++ [⟨.complete, job, q.inflight - 1⟩] } w worker (.closing (how != .killed))

def release (q : FairQueue) (w : ℕ) (worker : Worker) (goesOn : Bool) : FairQueue :=
  q.releaseSem.setPhase w worker (if goesOn then .waiting else .returned)

def enqueueStep (q : FairQueue) (tenantId jobId : String) : Bool × FairQueue :=
  (validateTenantId tenantId).elim (false, q) fun tid => (true, q.enqueue tid jobId)

def acquireStep (q : FairQueue) (w : ℕ) : Bool × FairQueue :=
  match q.workers[w]?, q.sem with
  | some ⟨d, .waiting⟩, n + 1 => (true, setPhase { q with sem := n } w ⟨d, .waiting⟩ .holding)
  | _, _ => (false, q)

def pickStep (q : FairQueue) (w : ℕ) : Bool × FairQueue :=
  match q.workers[w]? with
  | some ⟨d, .holding⟩ => (true, q.pick w ⟨d, .holding⟩)
  | _ => (false, q)

def finishStep (q : FairQueue) (w : ℕ) (how : RunnerEnd) : Bool × FairQueue :=
  match q.workers[w]? with
  | some ⟨d, .running job⟩ => (true, q.finish w ⟨d, .running job⟩ job how)
  | _ => (false, q)

def releaseStep (q : FairQueue) (w : ℕ) : Bool × FairQueue :=
  match q.workers[w]? with
  | some ⟨d, .closing goesOn⟩ => (true, q.release w ⟨d, .closing goesOn⟩ goesOn)
  | _ => (false, q)

/-- One step, and whether it could be taken. -/
def step (q : FairQueue) : QueueEvent → Bool × FairQueue
  | .enqueue tenantId jobId => q.enqueueStep tenantId jobId
  | .runAll workers => (true, q.runAll workers)
  | .acquire w => q.acquireStep w
  | .pick w => q.pickStep w
  | .finish w how => q.finishStep w how
  | .release w => q.releaseStep w

end FairQueue

end LeafWeb.Queue
