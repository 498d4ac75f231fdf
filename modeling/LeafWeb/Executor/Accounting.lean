import LeafWeb.Executor.Authority
import LeafWeb.Lib.Transition

/-! The transactions of `PostgresStore` on `instant_invocations` and `instant_accounting`. -/

namespace LeafWeb.Executor

open Lib Nat

inductive InvocationState
  | accepted
  | started
  | succeeded
  | failed
  deriving DecidableEq

inductive Outcome
  | succeeded
  | failed
  deriving DecidableEq

def Outcome.state : Outcome → InvocationState
  | .succeeded => .succeeded
  | .failed => .failed

def maxCpuMs : ℕ := 86400000

def maxWallMs : ℕ := 86400000

def maxMemoryPeakBytes : ℕ := 64 * 1024 * 1024 * 1024

def maxInputBytes : ℕ := 64 * 1024 * 1024

def maxOutputBytes : ℕ := 64 * 1024 * 1024

structure Bounded (maximum : ℕ) where
  value : ℕ
  le : value ≤ maximum
  deriving DecidableEq

structure Usage where
  cpuMs : Bounded maxCpuMs
  wallMs : Bounded maxWallMs
  memoryPeakBytes : Bounded maxMemoryPeakBytes
  inputBytes : Bounded maxInputBytes
  outputBytes : Bounded maxOutputBytes
  deriving DecidableEq

def Usage.zero : Usage :=
  ⟨⟨0, zero_le _⟩, ⟨0, zero_le _⟩, ⟨0, zero_le _⟩, ⟨0, zero_le _⟩, ⟨0, zero_le _⟩⟩

structure Identity where
  invocationId : ℕ
  (tenantId sessionId : String)
  leaseId : ℕ
  codeDigest : String
  deriving DecidableEq

inductive Report
  | accepted
  | started
  | terminal (outcome : Outcome) (usage : Usage)
  deriving DecidableEq

structure Record where
  identity : Identity
  occurredAt : ℤ
  report : Report

/-- The columns `state`, `started_at` and `terminal_at` in the combinations their check allows. -/
inductive Phase
  | accepted
  | started (startedAt : ℤ)
  | closed (outcome : Outcome) (startedAt terminalAt : ℤ)
  deriving DecidableEq

def Phase.state : Phase → InvocationState
  | .accepted => .accepted
  | .started _ => .started
  | .closed outcome _ _ => outcome.state

def Phase.close (outcome : Outcome) (terminalAt : ℤ) : Phase → Option Phase
  | .accepted => none
  | .started startedAt | .closed _ startedAt _ => some (.closed outcome startedAt terminalAt)

def Phase.abandon (acceptedAt now : ℤ) : Phase → Phase
  | .accepted => .closed .failed acceptedAt now
  | .started startedAt | .closed _ startedAt _ => .closed .failed startedAt now

structure InvocationRow where
  identity : Identity
  acceptedAt : ℤ
  phase : Phase
  updatedAt : ℤ

def InvocationRow.invocationId (r : InvocationRow) : ℕ := r.identity.invocationId

def InvocationRow.advance (phase : Phase) (now : ℤ) (r : InvocationRow) : InvocationRow :=
  { r with phase, updatedAt := now }

lemma InvocationRow.advance_id (phase : Phase) (now : ℤ) (r : InvocationRow) :
    (r.advance phase now).invocationId = r.invocationId := rfl

structure AccountingRow where
  identity : Identity
  outcome : Outcome
  recordedAt : ℤ
  usage : Usage
  recovered : Bool
  deriving DecidableEq

def AccountingRow.invocationId (r : AccountingRow) : ℕ := r.identity.invocationId

/-- The tables with the column `revoked_at` and the entities of the accounting outbox. -/
structure Books where
  db : Authority
  revokedAt : ℕ → Option ℤ
  invocations : Table InvocationRow.invocationId
  accounting : Table AccountingRow.invocationId
  events : List ℕ

def Books.empty : Books := ⟨.empty, fun _ => none, .empty, .empty, []⟩

variable (b : Books)

def settle (a : AccountingRow) (phase : Phase) (dbNow : ℤ) : Books :=
  { b with
    invocations :=
      b.invocations.modify a.invocationId (.advance phase dbNow) (InvocationRow.advance_id phase dbNow)
    accounting := b.accounting.insertMissing a
    events := b.events ++ [a.invocationId] }

def Op.revocation (dbNow : ℤ) : Op → ℤ
  | .renew _ _ l => l.notBefore
  | _ => dbNow

def heldLease (t : Authority) (leaseId : ℕ) : Bool := (t.leases.find leaseId).any fun l => l.state = .active

/-- The statements that take a lease out of its active state set `revoked_at` with it. -/
def storeStep (timeout : ℤ) (op : Op) (dbNow : ℤ) : Answer × Books :=
  let (answer, db) := apply b.db timeout op
  let revokedAt := fun leaseId =>
    if heldLease b.db leaseId && !heldLease db leaseId then some (op.revocation dbNow)
    else b.revokedAt leaseId
  (answer, { b with db, revokedAt })

def backed (i : Identity) (occurredAt : ℤ) : Bool :=
  (b.db.leases.find i.leaseId).any fun l =>
    l.sessionId = i.sessionId &&
      ((b.db.sessions.find l.sessionId).any fun s =>
        s.tenantId = i.tenantId && s.codeDigest = i.codeDigest) &&
      l.notBefore ≤ occurredAt && occurredAt ≤ l.expiresAt &&
      (b.revokedAt l.leaseId).all fun at_ => occurredAt ≤ at_

def Record.accounting (r : Record) (outcome : Outcome) (usage : Usage) : AccountingRow :=
  ⟨r.identity, outcome, r.occurredAt, usage, false⟩

def recordTerminal (r : Record) (row : InvocationRow) (outcome : Outcome) (usage : Usage)
    (dbNow : ℤ) : Except StoreError ((InvocationState × Bool) × Books) := do
  refuse (row.phase = .accepted) (.stale "terminal accounting requires a started invocation")
  match b.accounting.find r.identity.invocationId with
  | some existing =>
    if existing.recovered then return ((.failed, false), b)
    else do
      refuse (existing ≠ r.accounting outcome usage) (.stale "conflicting terminal accounting retry")
      return ((outcome.state, false), b)
  | none => do
    let phase ← demand (row.phase.close outcome r.occurredAt) (.violation "instant_invocations_check")
    return ((outcome.state, true), settle b (r.accounting outcome usage) phase dbNow)

def Record.opening (r : Record) (dbNow : ℤ) : InvocationRow := ⟨r.identity, r.occurredAt, .accepted, dbNow⟩

def opened (r : Record) (dbNow : ℤ) : Books :=
  { b with invocations := b.invocations.insertMissing (r.opening dbNow) }

def started (r : Record) (dbNow : ℤ) : Books :=
  { b with
    invocations := b.invocations.modify r.identity.invocationId
      (.advance (.started r.occurredAt) dbNow)
      (InvocationRow.advance_id (.started r.occurredAt) dbNow) }

def recordInvocation (r : Record) (dbNow : ℤ) : Except StoreError ((InvocationState × Bool) × Books) := do
  refuse (¬backed b r.identity r.occurredAt) (.stale "accounting identity is not backed by a valid durable lease")
  let b' := opened b r dbNow
  let row ← demand
    ((b'.invocations.find r.identity.invocationId).filter fun row => row.identity = r.identity)
    (.stale "conflicting immutable invocation identity")
  match r.report with
  | .accepted => return ((row.phase.state, false), b')
  | .started =>
    if row.phase = .accepted then return ((.started, false), started b' r dbNow)
    else return ((row.phase.state, false), b')
  | .terminal outcome usage => recordTerminal b' r row outcome usage dbNow

def stale (staleBefore : ℤ) (row : InvocationRow) : Bool :=
  (row.phase.state = .accepted || row.phase.state = .started) && row.updatedAt ≤ staleBefore

def InvocationRow.lost (row : InvocationRow) (dbNow : ℤ) : AccountingRow :=
  ⟨row.identity, .failed, dbNow, .zero, true⟩

def recoverRow (dbNow : ℤ) (a : Books × List ℕ) (row : InvocationRow) : Books × List ℕ :=
  if (a.1.accounting.find row.invocationId).isSome then a
  else
    (settle a.1 (row.lost dbNow) (row.phase.abandon row.acceptedAt dbNow) dbNow, a.2 ++ [row.invocationId])

/-- The rows that another transaction has locked are skipped. -/
def staleRows (staleBefore : ℤ) (limit : ℕ) (locked : ℕ → Bool) : List InvocationRow :=
  (sortOn (fun row => toLex (row.updatedAt, row.invocationId))
    (b.invocations.rows.filter fun row => stale staleBefore row && !locked row.invocationId)).take limit

def recoverStaleInvocations (staleBefore : ℤ) (limit : ℤ) (locked : ℕ → Bool) (dbNow : ℤ) :
    Except String (List ℕ × Books) := do
  refuse (limit < 1 ∨ 1000 < limit) "limit must be between 1 and 1000"
  let (b', recovered) := (staleRows b staleBefore limit.toNat locked).foldl (recoverRow dbNow) (b, [])
  return (recovered, b')

inductive Delivery
  | store (op : Op) (dbNow : ℤ)
  | record (r : Record) (dbNow : ℤ)
  | recover (staleBefore : ℤ) (limit : ℤ) (locked : ℕ → Bool) (dbNow : ℤ)

inductive Reply
  | store (answer : Answer)
  | recorded (state : InvocationState) (charged : Bool)
  | recovered (ids : List ℕ)
  | refused (e : StoreError)
  | invalid (message : String)
  deriving DecidableEq

def Reply.raised : Reply → Bool
  | .store (.failed _) | .refused _ | .invalid _ => true
  | .store _ | .recorded .. | .recovered _ => false

def deliver (timeout : ℤ) : Delivery → Reply × Books
  | .store op dbNow =>
    let (answer, b') := storeStep b timeout op dbNow
    (.store answer, b')
  | .record r dbNow =>
    match recordInvocation b r dbNow with
    | .error e => (.refused e, b)
    | .ok (found, b') => (.recorded found.1 found.2, b')
  | .recover staleBefore limit locked dbNow =>
    match recoverStaleInvocations b staleBefore limit locked dbNow with
    | .error message => (.invalid message, b)
    | .ok (ids, b') => (.recovered ids, b')

end LeafWeb.Executor
