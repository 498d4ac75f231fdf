import LeafWeb.Approval.Contract
import LeafWeb.Lib.ReadCommitted

/-! `PgTenantBrokerApprovalStore`: every call is one statement at READ COMMITTED. Instants are microseconds. -/

namespace LeafWeb.Approval.Postgres

open Lib ReadCommitted

/-- How the server and the driver turn texts and numbers into instants and back: `$12::timestamptz`,
`to_timestamp(ms / 1000.0)`, `new Date(expires_at).toISOString()` and
`Date.parse(String(execution_deadline_at))`. A value is missing where the conversion raises, or is
not a number in the last case. -/
structure Timestamps where
  ofText : String → Option ℤ
  toTimestamp : ℚ → Option ℤ
  toISOString : ℤ → Option String
  parse : ℤ → Option ℤ

abbrev Row := Record ℤ

variable (dates : Dates) (stamps : Timestamps)

def fromRow (row : Row) : Option Binding :=
  (stamps.toISOString row.expires_at).map fun expires_at =>
    { approval_id := row.approval_id, identity := row.identity, call := row.call,
      argument_digest := row.argument_digest, expires_at }

def reviewFromRow (row : Row) : Answer :=
  match fromRow stamps row with
  | none => .raised
  | some binding =>
    if !validBinding dates binding then .review none
    else if row.state = .completed then
      match row.result with
      | some result => .review (if validReceipt result then some (.completed binding result) else none)
      | none => .review none
    else .review (some (.open row.state binding))

inductive Outcome
  | claimed
  | as (state : State)

def claimFromRow (row : Row) (claim_outcome : Outcome) : Answer :=
  match fromRow stamps row with
  | none => .raised
  | some binding =>
    if !validBinding dates binding then .claim none
    else match claim_outcome with
    | .claimed =>
      match row.execution_claim_id, row.execution_deadline_at.bind stamps.parse with
      | some claimId, some deadline =>
        .claim (if EXECUTION_CLAIM_ID claimId && isSafeInteger deadline
          then some (.claimed claimId deadline binding) else none)
      | _, _ => .claim none
    | .as .completed =>
      match row.result with
      | some result => .claim (if validReceipt result then some (.completed binding result) else none)
      | none => .claim none
    | .as .approved => .claim none
    | .as state => .claim (some (.other state binding))

def overdue (now : ℤ) (row : Row) : Bool :=
  row.state = .executing && row.execution_deadline_at.any fun deadline => deadline ≤ now

def setUncertain (now : ℤ) (row : Row) : Row :=
  { row with state := .uncertain, uncertain_at := some now }

def create (binding : Binding) (current : Option Row) : Answer × Option Row :=
  if !validBinding dates binding then (.done false, current)
  else match stamps.ofText binding.expires_at with
  | none => (.raised, current)
  | some expires_at =>
    match current with
    | some row => (.done false, some row)
    | none => (.done true, some (.pending binding expires_at))

def review (input : ReviewInput) (snapshot current : Option Row) : Answer × Option Row :=
  if !validReviewInput input then (.review none, current)
  else match input.now_ms.bind stamps.toTimestamp with
  | none => (.raised, current)
  | some now =>
    let wanted (row : Row) : Bool := row.argument_digest = input.argument_digest &&
      row.identity.tenant_id = input.tenant_id && row.identity.subject_id = input.subject_id
    match updated (fun row => wanted row && overdue now row) (setUncertain now) snapshot current with
    | some row => (reviewFromRow dates stamps row, some row)
    | none =>
      match snapshot.filter fun row => wanted row &&
        (row.state = .executing || row.state = .completed || row.state = .uncertain ||
          ((row.state = .pending || row.state = .approved) && now < row.expires_at)) with
      | some row => (reviewFromRow dates stamps row, current)
      | none => (.review none, current)

def approve (input : ApproveInput) (snapshot current : Option Row) : Answer × Option Row :=
  if !(APPROVAL_ID input.approval_id && DIGEST input.argument_digest &&
      validIdentity input.identity && input.approved_at_ms.isSome) then (.done false, current)
  else match input.approved_at_ms.bind stamps.toTimestamp with
  | none => (.raised, current)
  | some approved_at =>
    let wanted (row : Row) : Bool :=
      sameIdentity row.identity input.identity && row.argument_digest = input.argument_digest
    match updated (fun row => wanted row && row.state = .pending && approved_at < row.expires_at)
        (fun row => { row with state := .approved, approved_at := some approved_at })
        snapshot current with
    | some row => (.done true, some row)
    | none => (.done (snapshot.any fun row => wanted row && row.state ≠ .pending), current)

def claim (input : ClaimInput) (executionClaimId : String) (snapshot current : Option Row) : Answer × Option Row :=
  match input.now_ms, input.execution_deadline_ms with
  | some now_ms, some deadline_ms =>
    if !(APPROVAL_ID input.approval_id && validIdentity input.identity) || deadline_ms ≤ now_ms then
      (.claim none, current)
    else match stamps.toTimestamp now_ms, stamps.toTimestamp deadline_ms with
    | some now, some deadline =>
      let wanted (row : Row) : Bool := sameIdentity row.identity input.identity
      let stale := updated (fun row => wanted row && overdue now row) (setUncertain now) snapshot current
      let acquired := updated
        (fun row => wanted row && row.state = .approved && now < row.expires_at)
        (fun row => { row with
          state := .executing, execution_claim_id := some executionClaimId
          execution_started_at := some now, execution_deadline_at := some deadline })
        snapshot current
      match stale, acquired with
      | some row, _ => (claimFromRow dates stamps row (.as .uncertain), some row)
      | none, some row => (claimFromRow dates stamps row .claimed, some row)
      | none, none =>
        match snapshot.filter fun row => wanted row && row.state ≠ .approved with
        | some row => (claimFromRow dates stamps row (.as row.state), current)
        | none => (.claim none, current)
    | _, _ => (.raised, current)
  | _, _ => (.claim none, current)

def complete (input : CompleteInput) (clock : ℤ) (snapshot current : Option Row) : Answer × Option Row :=
  if !(APPROVAL_ID input.approval_id && validIdentity input.identity &&
      EXECUTION_CLAIM_ID input.execution_claim_id && validReceipt input.receipt) then
    (.done false, current)
  else
    match updated (fun row => sameIdentity row.identity input.identity && row.state = .executing &&
          row.execution_claim_id = some input.execution_claim_id &&
          row.execution_deadline_at.any fun deadline => clock < deadline)
        (fun row => { row with
          state := .completed, result := some input.receipt, completed_at := some clock })
        snapshot current with
    | some row => (.done true, some row)
    | none => (.done false, current)

def reconcile (input : ReconcileInput) (clock : ℤ) (snapshot current : Option Row) : Answer × Option Row :=
  if !(APPROVAL_ID input.approval_id && validIdentity input.identity &&
      DIGEST input.argument_digest && validReceipt input.receipt) then (.done false, current)
  else
    match updated (fun row => sameIdentity row.identity input.identity &&
          row.argument_digest = input.argument_digest && row.state = .uncertain)
        (fun row => { row with
          state := .completed, result := some input.receipt, completed_at := some clock
          uncertain_at := none })
        snapshot current with
    | some row => (.done true, some row)
    | none => (.done false, current)

def markUncertain (input : MarkUncertainInput) (snapshot current : Option Row) : Answer × Option Row :=
  if !(APPROVAL_ID input.approval_id && validIdentity input.identity &&
      EXECUTION_CLAIM_ID input.execution_claim_id && input.failed_at_ms.isSome) then
    (.done false, current)
  else match input.failed_at_ms.bind stamps.toTimestamp with
  | none => (.raised, current)
  | some failed_at =>
    match updated (fun row => sameIdentity row.identity input.identity && row.state = .executing &&
          row.execution_claim_id = some input.execution_claim_id)
        (setUncertain failed_at) snapshot current with
    | some row => (.done true, some row)
    | none => (.done false, current)

def execute (call : Call) (clock : ℤ) (snapshot current : Option Row) : Answer × Option Row :=
  match call with
  | .create binding => create dates stamps binding current
  | .review input => review dates stamps input snapshot current
  | .approve input => approve stamps input snapshot current
  | .claim input executionClaimId => claim dates stamps input executionClaimId snapshot current
  | .complete input => complete input clock snapshot current
  | .reconcile input => reconcile input clock snapshot current
  | .markUncertain input => markUncertain stamps input snapshot current

abbrev Db := Server String Row Call

def step : Db → Event Call ℤ → Option (Call × Answer) × Db :=
  ReadCommitted.step Call.approval_id (execute dates stamps)

end LeafWeb.Approval.Postgres
