import LeafWeb.Executor.Authority
import LeafWeb.Lib.Transition

/-! The operations of `ControlPlane` and its reaper as tasks of workers over one store. Between two
transactions or calls to an executor any other worker may run, and a worker may stop for good. The lock of
`assign` and `rebind` is local to a process and excludes no other worker. -/

namespace LeafWeb.Executor

open Lib Function

structure Settings where
  (heartbeatTimeout leaseLifetime : ℤ)

structure Request where
  (tenantId sessionId effectiveCatalogDigest codeDigest artifactDigest capability : String)
  genuine : Bool
  deriving DecidableEq

inductive Next
  | stop
  | assign (r : Request) (bindingEpoch : ℤ)
  | claim (r : Request) (bindingEpoch now : ℤ)
  | sweep (rest : List Session)
  deriving DecidableEq

inductive Task
  | idle
  -- `_assign`: before `get_session`, `claim_ready_slot`, `create_session`, the executor's `assign`
  -- and `activate`, and before `abort_claim` where no session was created.
  | assigning (r : Request) (bindingEpoch : ℤ)
  | claiming (r : Request) (bindingEpoch now : ℤ) (attempts : ℕ)
  | creating (r : Request) (bindingEpoch now : ℤ) (slot : Slot) (claim : ClaimRow)
  | loading (s : Session) (slot : Slot) (claim : ClaimRow) (now : ℤ)
  | activating (s : Session) (slot : Slot) (claim : ClaimRow) (now : ℤ)
  | aborting (claimId : ℕ)
  -- `release` and `invalidate`, with what the sweep has in common with them: before the store's part,
  -- `get_slot`, the executor's `release` and `complete_reclaim`.
  | releasing (sessionId : String) (next : Next)
  | invalidating (sessionId : String) (bindingEpoch : Option ℤ) (next : Next)
  | locating (s : Session) (next : Next)
  | asking (s : Session) (next : Next)
  | completing (sessionId : String) (next : Next)
  | rebinding (r : Request)
  -- `renew`: before `get_session`, `get_slot`, `get_claim` and the store's `renew`.
  | renewing (sessionId : String) (bindingEpoch : ℤ)
  | renewingSlot (s : Session) (bindingEpoch : ℤ)
  | renewingClaim (s : Session) (slot : Slot) (bindingEpoch : ℤ)
  | storing (s : Session) (slot : Slot) (claim : ClaimRow) (bindingEpoch : ℤ)
  | sweeping (idleTimeout : Option ℤ)
  deriving DecidableEq

/-- What a worker meets: clocks, the slot to pick, locked rows, Redis and the executor. -/
structure Turn where
  (now dbNow : ℤ)
  picked : Option (String × String)
  locked : String → Bool
  (coordination executor : Bool)

variable (cfg : Settings)

def Request.session (r : Request) (bindingEpoch : ℤ) (slot : Slot) (claim : ClaimRow)
    (assignmentId : ℕ) : Session where
  assignmentId := assignmentId
  tenantId := r.tenantId
  sessionId := r.sessionId
  executorId := slot.executorId
  slotId := slot.slotId
  claimId := claim.claimId
  bindingEpoch := bindingEpoch
  catalogDigest := r.effectiveCatalogDigest
  codeDigest := r.codeDigest
  artifactDigest := r.artifactDigest
  runtimeDigest := slot.runtimeDigest.getD ""
  capability := r.capability
  state := .binding
  leaseId := none
  leaseSequence := 0
  expiresAt := none
  lastActivityAt := none

def leaseFor (s : Session) (slot : Slot) (claim : ClaimRow) (now sequence : ℤ) (leaseId : ℕ) : Lease :=
  ⟨leaseId, slot.executorId, slot.slotId, claim.claimId, slot.hostEpoch, slot.slotEpoch,
    s.bindingEpoch, sequence, now, now + cfg.leaseLifetime⟩

def calls (fresh : ℕ) (turn : Turn) : Task → Option Op
  | .idle => none
  | .assigning r _ => some (.getSession r.sessionId)
  | .claiming _ _ now _ =>
    some (.claimReadySlot turn.dbNow turn.picked fresh (now + cfg.leaseLifetime))
  | .creating r bindingEpoch _ slot claim =>
    if r.genuine then some (.createSession (r.session bindingEpoch slot claim fresh) turn.dbNow)
    else none
  | .loading .. => none
  | .activating s slot claim now =>
    some (.activate s.sessionId (leaseFor cfg s slot claim now 1 fresh))
  | .aborting claimId => some (.abortClaim claimId)
  | .releasing sessionId _ => some (.release sessionId)
  | .invalidating sessionId bindingEpoch _ => some (.invalidate sessionId bindingEpoch)
  | .locating s _ => some (.getSlot s.executorId s.slotId)
  | .asking .. => none
  | .completing sessionId _ => some (.completeReclaim sessionId turn.dbNow)
  | .rebinding r => some (.getSession r.sessionId)
  | .renewing sessionId _ => some (.getSession sessionId)
  | .renewingSlot s _ => some (.getSlot s.executorId s.slotId)
  | .renewingClaim s _ _ => some (.getClaim s.claimId)
  | .storing s slot claim bindingEpoch =>
    some (.renew s.sessionId bindingEpoch (leaseFor cfg s slot claim turn.now (s.leaseSequence + 1) fresh))
  | .sweeping idleTimeout =>
    some (.reclaim turn.now (idleTimeout.map (turn.now - ·)) turn.locked turn.dbNow fresh)

/-- The service asks for a slot five times, and only where Redis is there. -/
def Task.claim (turn : Turn) (r : Request) (bindingEpoch now : ℤ) : Task :=
  if turn.coordination then .claiming r bindingEpoch now 5 else .idle

def Next.task (turn : Turn) : Next → Task
  | .stop => .idle
  | .assign r bindingEpoch => .assigning r bindingEpoch
  | .claim r bindingEpoch now => .claim turn r bindingEpoch now
  | .sweep [] => .idle
  | .sweep (s :: rest) => .locating s (.sweep rest)

def Task.next (fresh : ℕ) (turn : Turn) : Task → Answer → Task
  | .assigning r bindingEpoch, .session found =>
    match found.filter fun s => s.state.live with
    | none => .claim turn r bindingEpoch turn.now
    | some s =>
      if s.expiresAt.all fun e => turn.now < e then .idle
      else .releasing s.sessionId (.claim r bindingEpoch turn.now)
  | .claiming r bindingEpoch now _, .claimed (some (slot, claim)) =>
    .creating r bindingEpoch now slot claim
  | .claiming r bindingEpoch now (attempts + 2), .claimed none =>
    .claiming r bindingEpoch now (attempts + 1)
  | .creating r bindingEpoch now slot claim, answer =>
    if r.genuine ∧ answer = .done then
      .loading (r.session bindingEpoch slot claim fresh) slot claim now
    else .aborting claim.claimId
  | .loading s slot claim now, _ =>
    if turn.executor then .activating s slot claim now else .releasing s.sessionId .stop
  | .activating s _ _ _, answer => if answer = .done then .idle else .releasing s.sessionId .stop
  | .releasing _ next, .session found =>
    match found with
    | none => next.task turn
    | some s => .locating s next
  | .invalidating _ _ next, .session found =>
    match found with
    | none => next.task turn
    | some s => .locating s next
  | .locating s next, .slot (some _) => .asking s next
  | .locating _ (.sweep rest), .slot none => (Next.sweep rest).task turn
  | .asking s next, _ => if turn.executor then .completing s.sessionId next else .idle
  | .completing _ next, _ => next.task turn
  | .rebinding r, .session found =>
    match found with
    | none => .assigning r 1
    | some s =>
      .invalidating s.sessionId (some s.bindingEpoch) (.assign r (s.bindingEpoch + 1))
  | .renewing _ bindingEpoch, .session (some s) =>
    if s.expiresAt.any fun e => turn.now < e then .renewingSlot s bindingEpoch else .idle
  | .renewingSlot s bindingEpoch, .slot (some slot) => .renewingClaim s slot bindingEpoch
  | .renewingClaim s slot bindingEpoch, .claim (some c) =>
    if c.state = .active then .storing s slot c bindingEpoch else .idle
  | .sweeping _, .sessions found => (Next.sweep found).task turn
  | _, _ => .idle

structure Plane (σ : Type) where
  db : σ
  tasks : ℕ → Task
  minted : ℕ

variable {σ : Type}

def Plane.empty : Plane Authority := ⟨.empty, fun _ => .idle, 0⟩

inductive Job
  | assign (r : Request)
  | rebind (r : Request)
  | renew (sessionId : String) (bindingEpoch : ℤ)
  | release (sessionId : String)
  | invalidate (sessionId : String) (bindingEpoch : Option ℤ)
  | sweep (idleTimeout : Option ℤ)

def Job.task : Job → Task
  | .assign r => .assigning r 1
  | .rebind r => .rebinding r
  | .renew sessionId bindingEpoch => .renewing sessionId bindingEpoch
  | .release sessionId => .releasing sessionId .stop
  | .invalidate sessionId bindingEpoch => .invalidating sessionId bindingEpoch .stop
  | .sweep idleTimeout => .sweeping idleTimeout

inductive HostCall
  | register (hostId endpoint : String) (slotIds : List String) (dbNow : ℤ)
  | readiness (hostId slotId : String) (ready : Bool) (codeDigest runtimeDigest : String)
  | heartbeat (hostId : String) (dbNow : ℤ)
  | drain (hostId : String)

def HostCall.op : HostCall → Op
  | .register hostId endpoint slotIds dbNow => .registerHost hostId endpoint slotIds dbNow
  | .readiness hostId slotId ready code runtime => .setReadiness hostId slotId ready code runtime
  | .heartbeat hostId dbNow => .heartbeat hostId dbNow
  | .drain hostId => .drain hostId

inductive Event
  | start (worker : ℕ) (job : Job)
  | resume (worker : ℕ) (turn : Turn)
  | crash (worker : ℕ)
  | host (call : HostCall)

def Event.op (p : Plane σ) : Event → Option Op
  | .start .. => none
  | .resume worker turn => calls cfg p.minted turn (p.tasks worker)
  | .crash _ => none
  | .host call => some call.op

def transact (p : Plane Authority) (e : Event) : Answer × Authority :=
  match e.op cfg p with
  | none => (.done, p.db)
  | some op => apply p.db cfg.heartbeatTimeout op

def schedule (p : Plane σ) (answer : Answer) : Event → ℕ → Task
  | .start worker job =>
    if p.tasks worker = .idle then update p.tasks worker job.task else p.tasks
  | .resume worker turn =>
    update p.tasks worker ((p.tasks worker).next p.minted turn answer)
  | .crash worker => update p.tasks worker .idle
  | .host _ => p.tasks

def Plane.step (p : Plane Authority) (e : Event) : Answer × Plane Authority :=
  let (answer, db) := transact cfg p e
  (answer, ⟨db, schedule p answer e, p.minted + p.db.sessions.rows.length + 1⟩)

end LeafWeb.Executor
