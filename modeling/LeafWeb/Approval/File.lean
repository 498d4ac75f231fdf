import LeafWeb.Approval.Contract
import LeafWeb.Lib.Transition

/-! `FileTenantBrokerApprovalStore`: one file for an approval, replaced under its lock; `create` alone works
without the lock. -/

namespace LeafWeb.Approval.File

open Function

/-- The file of an approval. One that has been opened for its first text cannot be parsed yet. -/
inductive Content (dates : Dates) (id : String)
  | opened (binding : Binding) (same : binding.approval_id = id)
      (valid : validBinding dates binding = true)
  | written (record : Record String)

def Content.view {dates : Dates} {id : String} : Content dates id → Option (Record String)
  | .opened _ _ _ => none
  | .written record => some record

abbrev Stored (dates : Dates) (id : String) := Option (Content dates id)

variable (dates : Dates) {id : String}

def bindingOf (record : Record String) : Binding where
  approval_id := record.approval_id
  identity := record.identity
  call := record.call
  argument_digest := record.argument_digest
  expires_at := record.expires_at

def isDate (text : Option String) : Bool := (dates.parse (text.getD "")).isSome

def notAfter (text : String) (now : ℚ) : Bool := (dates.parse text).any fun (t : ℤ) => (t : ℚ) ≤ now

def validFileRecord (record : Record String) : Bool :=
  let hasClaim := record.execution_claim_id.any EXECUTION_CLAIM_ID &&
    isDate dates record.execution_started_at && isDate dates record.execution_deadline_at
  validBinding dates (bindingOf record) &&
  match record.state with
  | .pending => record.approved_at = none && !hasClaim && record.result = none &&
      record.completed_at = none && record.uncertain_at = none
  | .approved => isDate dates record.approved_at && !hasClaim && record.result = none &&
      record.completed_at = none && record.uncertain_at = none
  | .completed => isDate dates record.approved_at && hasClaim && record.result.any validReceipt &&
      isDate dates record.completed_at && record.uncertain_at = none
  | .uncertain => isDate dates record.approved_at && hasClaim && record.result = none &&
      record.completed_at = none && isDate dates record.uncertain_at
  | .executing => isDate dates record.approved_at && hasClaim && record.result = none &&
      record.completed_at = none && record.uncertain_at = none

/-- The action under the lock; `missing` is the answer where `read` finds no record. -/
def onRecord (missing : Answer) (file : Stored dates id)
    (action : Record String → Answer × Stored dates id) : Answer × Stored dates id :=
  match file with
  | none => (missing, none)
  | some (.opened binding same valid) => (.raised, some (.opened binding same valid))
  | some (.written record) => if validFileRecord dates record then action record else (missing, file)

def write (record : Record String) (answer : Answer) (file : Stored dates id) : Answer × Stored dates id :=
  if validFileRecord dates record then (answer, some (.written record)) else (.raised, file)

def writeAt (instant : ℚ) (record : String → Record String) (answer : Answer)
    (file : Stored dates id) : Answer × Stored dates id :=
  match dates.toISOString instant with
  | none => (.raised, file)
  | some text => write dates (record text) answer file

def setUncertain (record : Record String) (text : String) : Record String :=
  { record with state := .uncertain, uncertain_at := some text }

def overdue (now : ℚ) (record : Record String) : Bool :=
  record.state = .executing && notAfter dates (record.execution_deadline_at.getD "") now

def reviewMatches (record : Record String) (input : ReviewInput) : Bool :=
  record.approval_id = input.approval_id && record.argument_digest = input.argument_digest &&
    record.identity.tenant_id = input.tenant_id && record.identity.subject_id = input.subject_id

def review (input : ReviewInput) (file : Stored dates id) : Answer × Stored dates id :=
  match validReviewInput input, input.now_ms with
  | true, some now =>
    onRecord dates (.review none) file fun record =>
      if !reviewMatches record input then (.review none, file)
      else if overdue dates now record then
        writeAt dates now (setUncertain record) (.review (some (.open .uncertain (bindingOf record)))) file
      else if (record.state = .pending || record.state = .approved) &&
          notAfter dates record.expires_at now then (.review none, file)
      else match record.state, record.result with
        | .completed, some receipt =>
          (.review (some (.completed (bindingOf record) receipt)), file)
        | .completed, none => (.raised, file)
        | state, _ => (.review (some (.open state (bindingOf record))), file)
  | _, _ => (.review none, file)

def approve (input : ApproveInput) (file : Stored dates id) : Answer × Stored dates id :=
  match APPROVAL_ID input.approval_id && DIGEST input.argument_digest &&
      validIdentity input.identity, input.approved_at_ms with
  | true, some approved_at =>
    onRecord dates (.done false) file fun record =>
      if !sameIdentity record.identity input.identity ||
          record.argument_digest ≠ input.argument_digest then (.done false, file)
      else if record.state = .pending then
        if notAfter dates record.expires_at approved_at then (.done false, file)
        else writeAt dates approved_at
          (fun text => { record with state := .approved, approved_at := some text })
          (.done true) file
      else (.done true, file)
  | _, _ => (.done false, file)

def claim (input : ClaimInput) (executionClaimId : String) (file : Stored dates id) : Answer × Stored dates id :=
  match input.now_ms, input.execution_deadline_ms with
  | some now, some deadline =>
    if !(APPROVAL_ID input.approval_id && validIdentity input.identity) || deadline ≤ now then
      (.claim none, file)
    else onRecord dates (.claim none) file fun record =>
      if !sameIdentity record.identity input.identity then (.claim none, file)
      else if overdue dates now record then
        writeAt dates now (setUncertain record) (.claim (some (.other .uncertain (bindingOf record)))) file
      else match record.state with
      | .approved =>
        if notAfter dates record.expires_at now then (.claim none, file)
        else match dates.toISOString deadline with
        | none => (.raised, file)
        | some deadline_at =>
          writeAt dates now
            (fun text => { record with
              state := .executing, execution_claim_id := some executionClaimId
              execution_started_at := some text, execution_deadline_at := some deadline_at })
            (.claim (some (.claimed executionClaimId deadline (bindingOf record)))) file
      | .completed =>
        match record.result with
        | some receipt => (.claim (some (.completed (bindingOf record) receipt)), file)
        | none => (.raised, file)
      | state => (.claim (some (.other state (bindingOf record))), file)
  | _, _ => (.claim none, file)

def complete (input : CompleteInput) (clock : Millis) (file : Stored dates id) : Answer × Stored dates id :=
  if !(APPROVAL_ID input.approval_id && validIdentity input.identity &&
      EXECUTION_CLAIM_ID input.execution_claim_id && validReceipt input.receipt) then
    (.done false, file)
  else onRecord dates (.done false) file fun record =>
    match clock with
    | none => (.done false, file)
    | some completed_at =>
      if record.state ≠ .executing || !sameIdentity record.identity input.identity ||
          record.execution_claim_id ≠ some input.execution_claim_id ||
          notAfter dates (record.execution_deadline_at.getD "") completed_at then
        (.done false, file)
      else writeAt dates completed_at
        (fun text => { record with
          state := .completed, result := some input.receipt, completed_at := some text })
        (.done true) file

def reconcile (input : ReconcileInput) (clock : Millis) (file : Stored dates id) : Answer × Stored dates id :=
  if !(APPROVAL_ID input.approval_id && validIdentity input.identity &&
      DIGEST input.argument_digest && validReceipt input.receipt) then (.done false, file)
  else onRecord dates (.done false) file fun record =>
    if record.state ≠ .uncertain || !sameIdentity record.identity input.identity ||
        record.argument_digest ≠ input.argument_digest then (.done false, file)
    else match clock with
    | none => (.raised, file)
    | some completed_at =>
      writeAt dates completed_at
        (fun text => { record with
          state := .completed, result := some input.receipt, completed_at := some text
          uncertain_at := none })
        (.done true) file

def markUncertain (input : MarkUncertainInput) (file : Stored dates id) : Answer × Stored dates id :=
  match APPROVAL_ID input.approval_id && validIdentity input.identity &&
      EXECUTION_CLAIM_ID input.execution_claim_id, input.failed_at_ms with
  | true, some failed_at =>
    onRecord dates (.done false) file fun record =>
      if record.state ≠ .executing || !sameIdentity record.identity input.identity ||
          record.execution_claim_id ≠ some input.execution_claim_id then (.done false, file)
      else writeAt dates failed_at (setUncertain record) (.done true) file
  | _, _ => (.done false, file)

abbrev Files (dates : Dates) := (id : String) → Stored dates id

/-- `fill` is the second half of a `create` that has opened its file. -/
inductive Event
  | call (call : Call) (clock : Millis)
  | fill (approval_id : String)

def locked (files : Files dates) (call : Call)
    (action : Stored dates call.approval_id → Answer × Stored dates call.approval_id) :
    Option (Call × Answer) × Files dates :=
  let done := action (files call.approval_id)
  (some (call, done.1), update files call.approval_id done.2)

def create (files : Files dates) (binding : Binding) : Option (Call × Answer) × Files dates :=
  if valid : validBinding dates binding = true then
    match files binding.approval_id with
    | some _ => (some (.create binding, .done false), files)
    | none => (none, update files binding.approval_id (some (.opened binding rfl valid)))
  else (some (.create binding, .done false), files)

def fill (files : Files dates) (approval_id : String) : Option (Call × Answer) × Files dates :=
  match files approval_id with
  | some (.opened binding _ _) =>
    (some (.create binding, .done true),
      update files approval_id (some (.written (.pending binding binding.expires_at))))
  | _ => (none, files)

def step (files : Files dates) : Event → Option (Call × Answer) × Files dates
  | .fill approval_id => fill dates files approval_id
  | .call (.create binding) _ => create dates files binding
  | .call (.review input) _ => locked dates files (.review input) (review dates input)
  | .call (.approve input) _ => locked dates files (.approve input) (approve dates input)
  | .call (.claim input executionClaimId) _ =>
    locked dates files (.claim input executionClaimId) (claim dates input executionClaimId)
  | .call (.complete input) clock => locked dates files (.complete input) (complete dates input clock)
  | .call (.reconcile input) clock =>
    locked dates files (.reconcile input) (reconcile dates input clock)
  | .call (.markUncertain input) _ =>
    locked dates files (.markUncertain input) (markUncertain dates input)

end LeafWeb.Approval.File
