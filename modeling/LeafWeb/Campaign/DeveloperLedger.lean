import LeafWeb.Campaign.Checks
import LeafWeb.Lib.Statements
import LeafWeb.Lib.Transition

/-! The ledger of `campaign_developer_execution.py`. A call is one serial transaction; one that raises is
rolled back. -/

namespace LeafWeb.Campaign

open Lib

structure Scope where
  (org project campaign : String)
  deriving DecidableEq

namespace Developer

structure Ref where
  (bucket key version_id sha256 : String)
  deriving DecidableEq

structure Request where
  (org_id project_id campaign_id task_id parent_attempt_id : String)
  parent_attempt_fence : ℤ
  (repository_id commit_sha : String)
  source : Ref
  (job_name environment idempotency_key : String)
  deriving DecidableEq

structure Allocation where
  scope : Scope
  allocation_id : String
  (limit_microusd max_active spent_microusd reserved_microusd : ℤ)
  evidence_ref : Ref

structure Operation where
  operation_id : String
  scope : Scope
  (task_id parent_attempt_id : String)
  parent_attempt_fence : ℤ
  idempotency_key : String
  request : Request
  current_sequence : ℕ

/-- The four columns a settlement fills together; `resources_reconciled` is then true. -/
structure Settlement where
  cost_microusd : ℤ
  receipt_ref : Ref
  settled_at : ℤ

structure Reservation where
  scope : Scope
  operation_id : String
  sequence : ℕ
  developer_attempt_id : String
  expected_attempt_id : Option String
  reservation_microusd : ℤ
  admitted : Bool
  settlement : Option Settlement

def Reservation.key (r : Reservation) : String × ℕ := (r.operation_id, r.sequence)

structure Db where
  allocations : Table Allocation.scope
  operations : Table Operation.operation_id
  reservations : Table Reservation.key

def Db.empty : Db := ⟨.empty, .empty, .empty⟩

structure Texts where
  uuid : String → Option String
  sha256 : List String → String
  encodedLength : Request → ℕ

structure Parent where
  (task_id task_status : String)
  task_fence : ℤ
  attempt_status : String
  overdue : Bool
  fence : ℤ

structure World where
  campaign_status : Scope → Option String
  project_active : Scope → Bool
  remote_attempt : Scope → String → Option Parent
  now : ℤ

variable (texts : Texts)

def MAX_MONEY : ℤ := 10 ^ 15

def _int (value low high : ℤ) : Except Failure Unit :=
  refuse (¬ (low ≤ value ∧ value ≤ high)) (.invalid "integer outside permitted bounds")

def _uuid (value : String) : Except Failure String := do
  _secret value
  demand (texts.uuid value) (.invalid "invalid UUID")

def _scoped (org project campaign : String) : Except Failure Scope := do
  return ⟨← _uuid texts org, ← _uuid texts project, ← _uuid texts campaign⟩

def filled (value name : String) : Except Failure Unit := do
  _text value name 1024
  refuse (isBlank value = true) (.invalid "invalid execution request")

def _ref (value : Ref) : Except Failure Unit := do
  filled value.bucket "bucket"
  filled value.key "key"
  filled value.version_id "version_id"
  filled value.sha256 "sha256"
  let version := (strip value.version_id).map lowerAscii
  refuse (version = "null" ∨ version = "latest" ∨ isHex 64 value.sha256 = false)
    (.invalid "immutable object reference required")

def isIdempotencyKey (s : String) : Bool :=
  1 ≤ s.length && s.length ≤ 128 && s.toList.all fun c => ('A' ≤ c && c ≤ 'Z') ||
    ('a' ≤ c && c ≤ 'z') || ('0' ≤ c && c ≤ '9') || c = '.' || c = '_' || c = ':' || c = '-'

def _request (request : Request) (scope : Scope) (task parent : String) (fence : ℤ) : Except Failure Unit := do
  filled request.org_id "org_id"
  filled request.project_id "project_id"
  filled request.campaign_id "campaign_id"
  filled request.task_id "task_id"
  filled request.parent_attempt_id "parent_attempt_id"
  filled request.repository_id "repository_id"
  filled request.commit_sha "commit_sha"
  filled request.job_name "job_name"
  filled request.environment "environment"
  filled request.idempotency_key "idempotency_key"
  _int request.parent_attempt_fence 1 MAX_MONEY
  refuse (¬ (request.org_id = scope.org ∧ request.project_id = scope.project ∧
      request.campaign_id = scope.campaign ∧ request.task_id = task ∧
      request.parent_attempt_id = parent ∧ request.parent_attempt_fence = fence))
    (.conflict "parent_binding_conflict")
  refuse (isHex 40 request.commit_sha = false ∨ isIdempotencyKey request.idempotency_key = false)
    (.invalid "invalid execution request")
  _ref request.source
  refuse (12000 < texts.encodedLength request) (.invalid "request too large")

def digit (n : ℕ) : Char := Char.ofNat (48 + n % 10)

def eightDigits (n : ℕ) : List Char :=
  [digit (n / 10000000), digit (n / 1000000), digit (n / 100000), digit (n / 10000),
    digit (n / 1000), digit (n / 100), digit (n / 10), digit n]

def attemptId (operation_id : String) (sequence : ℕ) : String :=
  String.ofList (operation_id.toList.take 48 ++ '-' :: eightDigits sequence)

def attemptDigits (operation_id developer_attempt_id : String) : Option (List Char) :=
  let digits := developer_attempt_id.toList.drop 49
  if developer_attempt_id.toList.take 49 = operation_id.toList.take 48 ++ ['-'] ∧
      digits.length = 8 ∧ (digits.all fun c => '0' ≤ c && c ≤ '9') = true then some digits else none

def number (digits : List Char) : ℕ := digits.foldl (fun n c => 10 * n + (c.toNat - 48)) 0

variable (world : World) (db : Db)

def _live (scope : Scope) : Except Failure Unit := do
  let status ← demand (world.campaign_status scope) .missing
  refuse (world.project_active scope = false ∨ ¬ (status = "accepted" ∨ status = "running"))
    (.conflict "campaign_inactive")

def _allocation (scope : Scope) : Except Failure Allocation :=
  demand (db.allocations.find scope) (.conflict "allocation_required")

def _operation (scope : Scope) (operation_id : String) : Except Failure Operation := do
  refuse (isHex 64 operation_id = false) (.invalid "invalid operation ID")
  demand ((db.operations.find operation_id).filter fun op => op.scope = scope) .missing

def _current (scope : Scope) (op : Operation) (sequence : ℕ) : Except Failure Reservation :=
  demand ((db.reservations.find (op.operation_id, sequence)).filter fun r => r.scope = scope) .missing

inductive Result
  | allocation (row : Allocation) (replayed : Bool)
  | reservation (op : Operation) (row : Reservation) (replayed : Bool)

def unsettled (scope : Scope) (r : Reservation) : Bool := r.scope = scope && r.settlement.isNone

def Allocation.add (spent reserved : ℤ) (a : Allocation) : Allocation :=
  { a with
    spent_microusd := a.spent_microusd + spent, reserved_microusd := a.reserved_microusd + reserved }

lemma Allocation.scope_add (spent reserved : ℤ) (a : Allocation) : (a.add spent reserved).scope = a.scope := rfl

def Reservation.withAdmission (r : Reservation) : Reservation := { r with admitted := true }

lemma Reservation.key_withAdmission (r : Reservation) : r.withAdmission.key = r.key := rfl

def Reservation.settle (settlement : Settlement) (r : Reservation) : Reservation :=
  { r with settlement := some settlement }

lemma Reservation.key_settle (settlement : Settlement) (r : Reservation) : (r.settle settlement).key = r.key := rfl

def Operation.advance (op : Operation) : Operation :=
  { op with current_sequence := op.current_sequence + 1 }

lemma Operation.operation_id_advance (op : Operation) : op.advance.operation_id = op.operation_id := rfl

def Operation.reserving (op : Operation) (scope : Scope) (amount : ℤ) (previous : Option String) :
    Reservation where
  scope := scope
  operation_id := op.operation_id
  sequence := op.current_sequence
  developer_attempt_id := attemptId op.operation_id op.current_sequence
  expected_attempt_id := previous
  reservation_microusd := amount
  admitted := false
  settlement := none

def Db.addTo (scope : Scope) (spent reserved : ℤ) : Db :=
  { db with
    allocations := db.allocations.modify scope (.add spent reserved) (Allocation.scope_add spent reserved) }

def Db.modifyReservation (key : String × ℕ) (f : Reservation → Reservation) (hf : ∀ r, (f r).key = r.key) : Db :=
  { db with reservations := db.reservations.modify key f hf }

def _reserve (scope : Scope) (allocation : Allocation) (op : Operation) (amount : ℤ)
    (previous : Option String) : Except Failure (Result × Db) := do
  refuse (allocation.max_active ≤ (db.reservations.rows.countP (unsettled scope) : ℤ)) (.conflict "active_limit")
  refuse (allocation.limit_microusd <
      allocation.spent_microusd + allocation.reserved_microusd + amount)
    (.conflict "allocation_exhausted")
  let row := op.reserving scope amount previous
  -- The attempt ids are unique over all operations.
  refuse (∃ r ∈ db.reservations.rows, r.developer_attempt_id = row.developer_attempt_id) .unavailable
  let reservations ← demand (db.reservations.insert row) .unavailable
  return (.reservation op row false, { db with reservations }.addTo scope 0 amount)

def record_allocation (org_id project_id campaign_id allocation_id : String)
    (limit_microusd max_active : ℤ) (evidence_ref : Ref) : Except Failure (Result × Db) := do
  let scope ← _scoped texts org_id project_id campaign_id
  _text allocation_id "allocation_id" 128
  _int limit_microusd 1 MAX_MONEY
  _int max_active 1 16
  _ref evidence_ref
  _live world scope
  let row : Allocation :=
    { scope, allocation_id, limit_microusd, max_active, spent_microusd := 0, reserved_microusd := 0, evidence_ref }
  match db.allocations.insert row with
  | some allocations => return (.allocation row false, { db with allocations })
  | none =>
    let existing ← _allocation db scope
    refuse (¬ (existing.allocation_id = allocation_id ∧ existing.limit_microusd = limit_microusd ∧
        existing.max_active = max_active ∧ existing.evidence_ref = evidence_ref))
      (.conflict "allocation_conflict")
    return (.allocation existing true, db)

def prepare (org_id project_id campaign_id task_id parent_attempt_id : String)
    (parent_attempt_fence : ℤ) (request : Request) (reservation_microusd : ℤ) :
    Except Failure (Result × Db) := do
  let scope ← _scoped texts org_id project_id campaign_id
  let task ← _uuid texts task_id
  let parent ← _uuid texts parent_attempt_id
  _int parent_attempt_fence 1 MAX_MONEY
  _int reservation_microusd 1 MAX_MONEY
  _request texts request scope task parent parent_attempt_fence
  let operation_id := texts.sha256
    [request.org_id, request.project_id, request.repository_id, request.idempotency_key]
  let allocation ← _allocation db scope
  match db.operations.rows.filter fun op => op.scope = scope &&
      (op.task_id = task || op.idempotency_key = request.idempotency_key) with
  | [] =>
    _live world scope
    let attempt ← demand (world.remote_attempt scope parent) .missing
    refuse (attempt.task_id ≠ task ∨ attempt.task_status ≠ "claimed" ∨
        attempt.attempt_status ≠ "active" ∨ attempt.overdue = true ∨
        attempt.fence ≠ parent_attempt_fence ∨ attempt.task_fence ≠ parent_attempt_fence)
      (.conflict "parent_binding_conflict")
    let op : Operation :=
      { operation_id, scope, task_id := task, parent_attempt_id := parent, parent_attempt_fence
        idempotency_key := request.idempotency_key, request, current_sequence := 1 }
    let operations ← demand (db.operations.insert op) .unavailable
    _reserve { db with operations } scope allocation op reservation_microusd none
  | [op] =>
    refuse (op.request ≠ request) (.conflict "binding_conflict")
    let original ← _current db scope op 1
    refuse (original.reservation_microusd ≠ reservation_microusd) (.conflict "binding_conflict")
    return (.reservation op (← _current db scope op op.current_sequence) true, db)
  | _ => throw (.conflict "binding_conflict")

def record_admission (org_id project_id campaign_id operation_id developer_attempt_id : String) :
    Except Failure (Result × Db) := do
  let scope ← _scoped texts org_id project_id campaign_id
  let _ ← _allocation db scope
  let op ← _operation db scope operation_id
  let row ← _current db scope op op.current_sequence
  refuse (row.developer_attempt_id ≠ developer_attempt_id) (.conflict "attempt_conflict")
  return (.reservation op row.withAdmission row.admitted,
    db.modifyReservation (operation_id, row.sequence) .withAdmission Reservation.key_withAdmission)

def settle (org_id project_id campaign_id operation_id developer_attempt_id : String)
    (cost_microusd : ℤ) (receipt_ref : Ref) (resources_reconciled : Bool) :
    Except Failure (Result × Db) := do
  _int cost_microusd 0 MAX_MONEY
  _ref receipt_ref
  refuse (resources_reconciled = false) (.conflict "cleanup_unverified")
  let scope ← _scoped texts org_id project_id campaign_id
  let _ ← _allocation db scope
  let op ← _operation db scope operation_id
  let digits ← demand (attemptDigits operation_id developer_attempt_id) (.conflict "attempt_conflict")
  _int (number digits) 1 99999999
  let row ← _current db scope op (number digits)
  match row.settlement with
  | some settlement =>
    refuse (settlement.cost_microusd ≠ cost_microusd ∨ settlement.receipt_ref ≠ receipt_ref)
      (.conflict "settlement_conflict")
    return (.reservation op row true, db)
  | none =>
    refuse (row.reservation_microusd < cost_microusd) (.conflict "reservation_exceeded")
    let settlement : Settlement := ⟨cost_microusd, receipt_ref, world.now⟩
    let settled := db.modifyReservation (operation_id, number digits) (.settle settlement)
      (Reservation.key_settle settlement)
    return (.reservation op (row.settle settlement) false,
      settled.addTo scope cost_microusd (-row.reservation_microusd))

def reserve_retry (org_id project_id campaign_id operation_id expected_attempt_id : String)
    (reservation_microusd : ℤ) : Except Failure (Result × Db) := do
  _int reservation_microusd 1 MAX_MONEY
  refuse (isHex 64 operation_id = false) (.invalid "invalid operation ID")
  refuse (attemptDigits operation_id expected_attempt_id = none) (.conflict "attempt_conflict")
  let scope ← _scoped texts org_id project_id campaign_id
  let allocation ← _allocation db scope
  let op ← _operation db scope operation_id
  let row ← _current db scope op op.current_sequence
  if row.expected_attempt_id = some expected_attempt_id then
    refuse (row.reservation_microusd ≠ reservation_microusd) (.conflict "retry_conflict")
    return (.reservation op row true, db)
  else
    refuse (row.developer_attempt_id ≠ expected_attempt_id ∨ row.settlement = none) (.conflict "retry_conflict")
    _live world scope
    _int (op.current_sequence + 1) 1 99999999
    let advanced := db.operations.modify operation_id Operation.advance Operation.operation_id_advance
    _reserve { db with operations := advanced } scope allocation op.advance reservation_microusd
      (some expected_attempt_id)

inductive Call
  | record_allocation (org_id project_id campaign_id allocation_id : String)
      (limit_microusd max_active : ℤ) (evidence_ref : Ref)
  | prepare (org_id project_id campaign_id task_id parent_attempt_id : String)
      (parent_attempt_fence : ℤ) (request : Request) (reservation_microusd : ℤ)
  | record_admission (org_id project_id campaign_id operation_id developer_attempt_id : String)
  | settle (org_id project_id campaign_id operation_id developer_attempt_id : String)
      (cost_microusd : ℤ) (receipt_ref : Ref) (resources_reconciled : Bool)
  | reserve_retry (org_id project_id campaign_id operation_id expected_attempt_id : String)
      (reservation_microusd : ℤ)

def perform : Call → Except Failure (Result × Db)
  | .record_allocation org project campaign id limit max_active evidence =>
    record_allocation texts world db org project campaign id limit max_active evidence
  | .prepare org project campaign task parent fence request amount =>
    prepare texts world db org project campaign task parent fence request amount
  | .record_admission org project campaign operation attempt =>
    record_admission texts db org project campaign operation attempt
  | .settle org project campaign operation attempt cost receipt reconciled =>
    settle texts world db org project campaign operation attempt cost receipt reconciled
  | .reserve_retry org project campaign operation expected amount =>
    reserve_retry texts world db org project campaign operation expected amount

def step (db : Db) (e : Call × World) : Except Failure Result × Db :=
  match perform texts e.2 db e.1 with
  | .ok (result, db') => (.ok result, db')
  | .error failure => (.error failure, db)

end Developer

end LeafWeb.Campaign
