import LeafWeb.Lib.Gather
import LeafWeb.Lib.Retention
import LeafWeb.Lib.Transition

/-! `WarmExecutorSupervisor`: between two steps of a call any other may run, and what the lock of a slot
protects beyond one step is marked on the slot. A body has passed the checks that read nothing but it, and
the signature of a lease has been looked at. Instants are microseconds. -/

namespace LeafWeb.Runtime

open Lib Retention

structure ExecutorError where
  (code message : String)
  retryable : Bool
  disposition : String
  deriving DecidableEq

structure Assignment where
  (assignmentId tenantId sessionId : String)
  bindingEpoch : ℤ
  (effectiveCatalogDigest codeDigest artifactDigest : String)
  deriving DecidableEq

structure Binding where
  assignment : Assignment
  capability : String
  maxOutputBytes : ℕ
  source : String
  deriving DecidableEq

inductive Child
  | exited
  | running (loaded : List String)
  deriving DecidableEq

structure Slot where
  binding : Option Binding
  loading : Bool
  highestLeaseSequence : ℤ
  child : Child
  locked : Bool

structure Body where
  (invocationId tenantId sessionId assignmentId : String)
  bindingEpoch : ℤ
  (leaseId effectiveCatalogDigest codeDigest artifactDigest capability params : String)
  deriving DecidableEq

abbrev Key := String × String × String

def Body.key (b : Body) : Key := (b.tenantId, b.sessionId, b.invocationId)

structure Claims where
  (jti executorId tenantId sessionId assignmentId : String)
  bindingEpoch : ℤ
  (effectiveCatalogDigest codeDigest artifactDigest capability : String)
  (leaseSequence exp nbf : Option ℤ)
  deriving DecidableEq

inductive Authorization
  | missing
  | unsigned
  | foreign
  | lease (claims : Claims)
  deriving DecidableEq

structure Response where
  (invocationId tenantId sessionId codeDigest : String)
  completedAt : ℤ
  result : Except ExecutorError String
  deriving DecidableEq

abbrev Cache := List (Retained Key (String × Response))

structure Settings where
  executorId : String
  idempotencyTtl : ℤ
  idempotencyMaxEntries : ℕ
  ttl_pos : 0 < idempotencyTtl
  maxEntries_pos : 0 < idempotencyMaxEntries
  canonical : Body → String

def findAssignment (slots : List Slot) (assignmentId : String) : Option ℕ :=
  slots.findIdx? fun s => s.binding.any fun b => b.assignment.assignmentId = assignmentId

def Claims.agree (cfg : Settings) (c : Claims) (b : Body) : Bool :=
  c.jti = b.leaseId && c.executorId = cfg.executorId && c.tenantId = b.tenantId &&
    c.sessionId = b.sessionId && c.assignmentId = b.assignmentId && c.bindingEpoch = b.bindingEpoch &&
    c.effectiveCatalogDigest = b.effectiveCatalogDigest && c.codeDigest = b.codeDigest &&
    c.artifactDigest = b.artifactDigest && c.capability = b.capability

def Assignment.agree (a : Assignment) (b : Body) : Bool :=
  a.tenantId = b.tenantId && a.sessionId = b.sessionId && a.bindingEpoch = b.bindingEpoch &&
    a.effectiveCatalogDigest = b.effectiveCatalogDigest && a.codeDigest = b.codeDigest &&
    a.artifactDigest = b.artifactDigest

def refused (code message : String) : ExecutorError := ⟨code, message, false, "not_started"⟩

def retryable (code message : String) : ExecutorError := ⟨code, message, true, "not_started"⟩

def Authorization.claims : Authorization → Except ExecutorError Claims
  | .missing => .error (refused "SESSION_EXPIRED" "missing bearer lease")
  | .unsigned => .error (refused "SESSION_EXPIRED" "invalid lease signature")
  | .foreign => .error (refused "SESSION_EXPIRED" "lease issuer or audience mismatch")
  | .lease c => .ok c

def verifyLease (cfg : Settings) (slots : List Slot) (body : Body) (authorization : Authorization)
    (now : ℤ) : Except ExecutorError (ℕ × ℤ) := do
  let claims ← authorization.claims
  refuse (¬claims.exp.any fun e => now < e) (refused "SESSION_EXPIRED" "lease has expired")
  refuse (claims.nbf.any fun n => now + 5000000 < n) (refused "SESSION_EXPIRED" "lease is not active")
  let i ← demand (findAssignment slots body.assignmentId)
    (retryable "EXECUTOR_NOT_READY" "assignment is not bound")
  let slot ← demand slots[i]? (retryable "EXECUTOR_NOT_READY" "assignment is not bound")
  let binding ← demand slot.binding (retryable "EXECUTOR_NOT_READY" "assignment is not bound")
  refuse slot.loading (retryable "EXECUTOR_NOT_READY" "assignment is still loading")
  refuse (¬claims.agree cfg body) (refused "SESSION_BINDING_MISMATCH" "lease does not match invocation binding")
  refuse (¬binding.assignment.agree body)
    (refused "SESSION_BINDING_MISMATCH" "invocation does not match local assignment")
  refuse (binding.capability ≠ body.capability)
    (refused "CAPABILITY_DENIED" "tool identity is not bound to this source")
  let sequence ← demand (claims.leaseSequence.filter fun n => slot.highestLeaseSequence ≤ n)
    (refused "SESSION_EXPIRED" "lease fencing sequence is stale")
  return (i, sequence)

inductive Reply
  | timeout
  | broken
  | failed (error : String)
  | ok (bytes : ℕ) (payload : String)
  deriving DecidableEq

def Slot.invoke (s : Slot) (assignmentId : String) (reply : Reply) : Bool × Reply :=
  match s.child with
  | .exited => (false, .broken)
  | .running loaded =>
    if assignmentId ∈ loaded then (true, reply) else (false, .failed "assignment is not loaded")

def Slot.load (s : Slot) (assignmentId : String) (reply : Reply) : Slot × Reply :=
  match s.child with
  | .exited => (s, .broken)
  | .running loaded =>
    if assignmentId ∈ loaded then (s, .ok 0 "")
    else
      match reply with
      | .ok bytes payload => ({ s with child := .running (assignmentId :: loaded) }, .ok bytes payload)
      | .broken => ({ s with child := .exited }, .broken)
      | .failed error => (s, .failed error)
      | .timeout => (s, .timeout)

def Slot.replace (s : Slot) : Slot :=
  { s with binding := none, highestLeaseSequence := 0, child := .running [] }

def Slot.restored (s : Slot) (saved : Option Binding) (reply : Reply) : Slot :=
  match saved with
  | none => s
  | some b =>
    match s.load b.assignment.assignmentId reply with
    | (s, .ok _ _) => { s with binding := some b }
    | (s, _) => s

inductive Call
  | returned
  -- `invoke`: before the lease check, the write of its sequence, the idempotency lookup, the accounting
  -- of the start, the child, the restoring of the binding, the accounting of the end, the store.
  | checking (body : Body) (authorization : Authorization)
  | recording (body : Body) (slot : ℕ) (sequence : ℤ)
  | looking (body : Body) (slot : ℕ)
  | starting (body : Body) (slot : ℕ)
  | sending (body : Body) (slot : ℕ)
  | replacing (body : Body) (slot : ℕ) (saved : Option Binding) (response : Response)
  | closing (body : Body) (response : Response)
  | storing (body : Body) (response : Response)
  -- `assign`: before the child loads, and before what follows from its answer.
  | loading (binding : Binding) (slot : ℕ)
  | abandoning (slot : ℕ)
  | rejecting (slot : ℕ)
  | readying (slot : ℕ)

structure Supervisor where
  slots : List Slot
  idempotency : Cache
  calls : List Call
  clock : ℤ

/-- What a call meets: the time since the last step, the clock, accounting and the child. -/
structure Turn where
  elapsed : ℕ
  now : ℤ
  emitted : Bool
  reply : Reply
  deriving DecidableEq

inductive Event
  | invoke (body : Body) (authorization : Authorization)
  | assign (binding : Binding)
  | release (assignmentId : String)
  | exit (slot : ℕ)
  | resume (call : ℕ) (turn : Turn)
  deriving DecidableEq

inductive Drop
  | expired
  | evicted
  | released
  deriving DecidableEq

structure Outcome where
  clock : ℤ
  accepted : Option (String × ℤ)
  looked : Option (Key × String)
  executed : Option Key
  stored : Option (Key × String × Response)
  dropped : List (Key × Drop)
  answered : Option Response
  deriving DecidableEq

def Outcome.quiet (clock : ℤ) : Outcome := ⟨clock, none, none, none, none, [], none⟩

def Body.error (b : Body) (now : ℤ) (e : ExecutorError) : Response :=
  ⟨b.invocationId, b.tenantId, b.sessionId, b.codeDigest, now, .error e⟩

def Body.succeed (b : Body) (now : ℤ) (maxOutputBytes bytes : ℕ) (payload : String) : Response :=
  if maxOutputBytes < bytes then
    b.error now ⟨"TOOL_FAILED", "tool output exceeds configured limit", false, "completed"⟩
  else ⟨b.invocationId, b.tenantId, b.sessionId, b.codeDigest, now, .ok payload⟩

def Response.unaccounted (r : Response) (b : Body) (now : ℤ) : Response :=
  b.error now ⟨"ACCOUNTING_UNAVAILABLE",
    "terminal accounting event could not reach the delivery plane", true,
    if r.result.toBool then "completed" else "unknown"⟩

variable (cfg : Settings) (s : Supervisor)

def Supervisor.set (i : ℕ) (call : Call) : Supervisor := { s with calls := s.calls.set i call }

def Supervisor.setSlot (i : ℕ) (f : Slot → Slot) : Supervisor := { s with slots := s.slots.modify i f }

def lookup (i : ℕ) (body : Body) (slot : ℕ) (now : ℤ) : Outcome × Supervisor :=
  let outcome := { Outcome.quiet s.clock with
    looked := some (body.key, cfg.canonical body)
    dropped := (expired s.clock s.idempotency).map (·, .expired) }
  let kept := purge s.clock s.idempotency
  match find kept body.key with
  | none => (outcome, { s.set i (.starting body slot) with idempotency := kept })
  | some prior =>
    if prior.value.1 ≠ cfg.canonical body then
      ({ outcome with answered := some (body.error now
          (refused "INVOCATION_CONFLICT" "invocation ID has another request hash")) },
        { s.set i .returned with idempotency := kept })
    else
      ({ outcome with answered := some prior.value.2 },
        { s.set i .returned with idempotency := touch kept body.key })

def storeResponse (i : ℕ) (body : Body) (response : Response) : Outcome × Supervisor :=
  let kept := store (purge s.clock s.idempotency)
    ⟨body.key, s.clock + cfg.idempotencyTtl, cfg.canonical body, response⟩
  ({ Outcome.quiet s.clock with
      stored := some (body.key, cfg.canonical body, response)
      dropped := (expired s.clock s.idempotency).map (·, .expired) ++
        (excess cfg.idempotencyMaxEntries kept).map (·, .evicted)
      answered := some response },
    { s.set i .returned with idempotency := trim cfg.idempotencyMaxEntries kept })

/-- The child's part of an invocation. A good reply from a slot that has lost its binding raises. -/
def send (i : ℕ) (body : Body) (k : ℕ) (turn : Turn) : Outcome × Supervisor :=
  match s.slots[k]? with
  | none => (.quiet s.clock, s)
  | some slot =>
    if slot.locked then (.quiet s.clock, s)
    else
      let (executed, reply) := slot.invoke body.assignmentId turn.reply
      let outcome := { Outcome.quiet s.clock with executed := if executed then some body.key else none }
      let replacing := fun e => (s.setSlot k fun slot => { slot.replace with locked := true }).set i
        (.replacing body k slot.binding (body.error turn.now e))
      match reply with
      | .timeout =>
        (outcome, replacing ⟨"DEADLINE_EXCEEDED", "tool exceeded its wall time", false, "unknown"⟩)
      | .broken =>
        (outcome, replacing ⟨"TOOL_FAILED", "child exited during invocation", false, "unknown"⟩)
      | .failed error =>
        (outcome, s.set i (.closing body (body.error turn.now ⟨"TOOL_FAILED", error, false, "completed"⟩)))
      | .ok bytes payload =>
        (outcome, s.set i (match slot.binding with
          | none => .returned
          | some b => .closing body (body.succeed turn.now b.maxOutputBytes bytes payload)))

def restore (i : ℕ) (body : Body) (k : ℕ) (saved : Option Binding) (response : Response)
    (reply : Reply) : Outcome × Supervisor :=
  (.quiet s.clock,
    (s.setSlot k fun slot => { slot.restored saved reply with locked := false }).set i (.closing body response))

def assign (binding : Binding) : Supervisor :=
  match findAssignment s.slots binding.assignment.assignmentId with
  | some _ => s
  | none =>
    match s.slots.findIdx? fun slot => slot.binding.isNone && slot.child ≠ .exited with
    | none => s
    | some k =>
      { s.setSlot k fun slot => { slot with binding := some binding, loading := true } with
        calls := s.calls ++ [.loading binding k] }

def loadChild (i : ℕ) (binding : Binding) (k : ℕ) (reply : Reply) : Supervisor :=
  match s.slots[k]? with
  | none => s
  | some slot =>
    if slot.locked then s
    else
      let (slot', reply) := slot.load binding.assignment.assignmentId reply
      (s.setSlot k fun _ => slot').set i (match reply with
        | .timeout | .broken => .abandoning k
        | .failed _ => .rejecting k
        | .ok _ _ => .readying k)

def release (assignmentId : String) : Outcome × Supervisor :=
  match (findAssignment s.slots assignmentId).bind fun k => s.slots[k]?.map (k, ·) with
  | none => (.quiet s.clock, s)
  | some (k, slot) =>
    if slot.locked then (.quiet s.clock, s)
    else
      let own := fun e : Retained Key (String × Response) => slot.binding.any fun b =>
        e.key.1 = b.assignment.tenantId && e.key.2.1 = b.assignment.sessionId
      ({ Outcome.quiet s.clock with
          dropped := (s.idempotency.filter own).map fun e => (e.key, .released) },
        { s.setSlot k Slot.replace with idempotency := s.idempotency.filter fun e => !own e })

def resume (s : Supervisor) (i : ℕ) (turn : Turn) : Outcome × Supervisor :=
  match s.calls[i]? with
  | none | some .returned => (.quiet s.clock, s)
  | some (.checking body authorization) =>
    match verifyLease cfg s.slots body authorization turn.now with
    | .error e =>
      ({ Outcome.quiet s.clock with answered := some (body.error turn.now e) }, s.set i .returned)
    | .ok (k, sequence) => (.quiet s.clock, s.set i (.recording body k sequence))
  | some (.recording body k sequence) =>
    ({ Outcome.quiet s.clock with accepted := some (body.assignmentId, sequence) },
      (s.setSlot k fun slot => { slot with highestLeaseSequence := sequence }).set i (.looking body k))
  | some (.looking body k) => lookup cfg s i body k turn.now
  | some (.starting body k) =>
    -- The wall limit is read from the slot first: a slot that has lost its binding raises here.
    if (s.slots[k]?.bind Slot.binding).isNone then (.quiet s.clock, s.set i .returned)
    else if turn.emitted then (.quiet s.clock, s.set i (.sending body k))
    else
      ({ Outcome.quiet s.clock with answered := some (body.error turn.now
          (retryable "ACCOUNTING_UNAVAILABLE" "accounting event could not reach the delivery plane")) },
        s.set i .returned)
  | some (.sending body k) => send s i body k turn
  | some (.replacing body k saved response) => restore s i body k saved response turn.reply
  | some (.closing body response) =>
    (.quiet s.clock,
      s.set i (.storing body (if turn.emitted then response else response.unaccounted body turn.now)))
  | some (.storing body response) => storeResponse cfg s i body response
  | some (.loading binding k) => (.quiet s.clock, loadChild s i binding k turn.reply)
  | some (.abandoning k) => (.quiet s.clock, (s.setSlot k Slot.replace).set i .returned)
  | some (.rejecting k) =>
    (.quiet s.clock, (s.setSlot k fun slot => { slot with binding := none, loading := false }).set i .returned)
  | some (.readying k) =>
    (.quiet s.clock, (s.setSlot k fun slot => { slot with loading := false }).set i .returned)

def step : Event → Outcome × Supervisor
  | .invoke body authorization =>
    (.quiet s.clock, { s with calls := s.calls ++ [.checking body authorization] })
  | .assign binding => (.quiet s.clock, assign s binding)
  | .release assignmentId => release s assignmentId
  | .exit k => (.quiet s.clock, s.setSlot k fun slot => { slot with child := .exited })
  | .resume i turn => resume cfg { s with clock := s.clock + turn.elapsed } i turn

def Supervisor.start (poolSize : ℕ) : Supervisor :=
  ⟨List.replicate poolSize ⟨none, false, 0, .running [], false⟩, [], [], 0⟩

def Settings.usual : Settings := ⟨"executor-1", 300000000, 100, by decide, by decide, Body.params⟩

def Binding.sample : Binding :=
  ⟨⟨"assignment-1", "tenant-1", "session-1", 1, "catalog", "code", "artifact"⟩, "count", 1000, "def run()"⟩

def Body.sample (invocationId : String) : Body :=
  ⟨invocationId, "tenant-1", "session-1", "assignment-1", 1, "lease-1", "catalog", "code", "artifact",
    "count", "[]"⟩

def Authorization.sample (sequence : ℤ) : Authorization :=
  .lease ⟨"lease-1", "executor-1", "tenant-1", "session-1", "assignment-1", 1, "catalog", "code",
    "artifact", "count", some sequence, some 900, none⟩

def Turn.smooth : Turn := ⟨0, 0, true, .ok 2 "42"⟩

def bound : List Event := [.assign .sample, .resume 0 .smooth, .resume 0 .smooth]

def resumed (i n : ℕ) (turn : Turn) : List Event := List.replicate n (.resume i turn)

end LeafWeb.Runtime
