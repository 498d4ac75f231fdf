import Mathlib.Data.Rat.Lemmas

/-! What the approval stores of `tenantBrokerApprovalStore.ts` are given, check and answer. -/

namespace LeafWeb.Approval

def lengthWithin (low high : ℕ) (s : String) : Bool := low ≤ s.length && s.length ≤ high

def isAsciiAlphanum (c : Char) : Bool := ('A' ≤ c && c ≤ 'Z') || ('a' ≤ c && c ≤ 'z') || ('0' ≤ c && c ≤ '9')

def isToken (c : Char) : Bool := isAsciiAlphanum c || c = '_' || c = '-'

def ID (s : String) : Bool :=
  match s.toList with
  | [] => false
  | c :: rest =>
    isAsciiAlphanum c && rest.length ≤ 255 &&
      rest.all fun c => isAsciiAlphanum c || c = '.' || c = '_' || c = ':' || c = '-'

def APPROVAL_ID (s : String) : Bool := lengthWithin 8 256 s && s.toList.all isToken

def EXECUTION_CLAIM_ID (s : String) : Bool := lengthWithin 16 256 s && s.toList.all isToken

def STANDARD_SERVICE_ARTIFACT_ID (s : String) : Bool := lengthWithin 16 256 s && s.toList.all isToken

def DIGEST (s : String) : Bool :=
  lengthWithin 64 64 s && s.toList.all fun c => ('a' ≤ c && c ≤ 'f') || ('0' ≤ c && c ≤ '9')

/-- `d` stands for a digit. -/
def CANONICAL_EXPIRY (s : String) : Bool :=
  let shape := "dddd-dd-ddTdd:dd:dd.dddZ".toList
  s.length = shape.length && (s.toList.zip shape).all fun (c, p) => if p = 'd' then '0' ≤ c && c ≤ '9' else c = p

/-- A number as the callers pass it; `none` stands for `NaN` and the infinities. -/
abbrev Millis := Option ℚ

/-- `Date.parse(text)`, without a value for `NaN`, and `new Date(ms).toISOString()`, without a
value where it throws. -/
structure Dates where
  parse : String → Option ℤ
  toISOString : ℚ → Option String

def isSafeInteger (n : ℤ) : Bool := n.natAbs ≤ 2 ^ 53 - 1

def canonicalExpiryMillis (dates : Dates) (value : String) : Option ℤ :=
  if CANONICAL_EXPIRY value then
    match dates.parse value with
    | none => none
    | some parsed =>
      if isSafeInteger parsed && dates.toISOString parsed = some value then some parsed else none
  else none

structure Identity where
  (tenant_id subject_id session_id authority_turn_id subscription_mount_id runner_profile_id : String)

/-- The arguments are the text of a JSON object. -/
structure ServiceCall where
  (service_id tool_id arguments : String)

structure Binding where
  approval_id : String
  identity : Identity
  call : ServiceCall
  (argument_digest expires_at : String)

structure Receipt where
  content : String
  artifact_ids : Option (List String)
  receipt_id : Option String

inductive State
  | pending
  | approved
  | executing
  | completed
  | uncertain
  deriving DecidableEq

def sameIdentity (a b : Identity) : Bool :=
  a.tenant_id = b.tenant_id && a.subject_id = b.subject_id && a.session_id = b.session_id &&
    a.authority_turn_id = b.authority_turn_id &&
    a.subscription_mount_id = b.subscription_mount_id &&
    a.runner_profile_id = b.runner_profile_id

variable {a b : Identity}

lemma sameIdentity_iff : sameIdentity a b = true ↔ a = b := by
  cases a
  cases b
  simp [sameIdentity, and_assoc]

def validIdentity (identity : Identity) : Bool :=
  [identity.tenant_id, identity.subject_id, identity.session_id, identity.authority_turn_id,
    identity.subscription_mount_id, identity.runner_profile_id].all ID &&
  (identity.runner_profile_id = "author" || identity.runner_profile_id = "spine")

def validBinding (dates : Dates) (binding : Binding) : Bool :=
  APPROVAL_ID binding.approval_id && DIGEST binding.argument_digest &&
    (canonicalExpiryMillis dates binding.expires_at).isSome && validIdentity binding.identity &&
    ID binding.call.service_id && ID binding.call.tool_id

def MAX_RECEIPT_BYTES : ℕ := 1048576

def MAX_STANDARD_SERVICE_ARTIFACT_IDS : ℕ := 64

def validStandardServiceArtifactIds (ids : List String) : Bool :=
  ids.length ≤ MAX_STANDARD_SERVICE_ARTIFACT_IDS && ids.all STANDARD_SERVICE_ARTIFACT_ID

def validReceipt (receipt : Receipt) : Bool :=
  receipt.content.utf8ByteSize ≤ MAX_RECEIPT_BYTES && receipt.receipt_id.all APPROVAL_ID &&
    receipt.artifact_ids.all validStandardServiceArtifactIds

structure ReviewInput where
  (approval_id argument_digest tenant_id subject_id : String)
  now_ms : Millis

structure ApproveInput where
  approval_id : String
  identity : Identity
  argument_digest : String
  approved_at_ms : Millis

structure ClaimInput where
  approval_id : String
  identity : Identity
  (now_ms execution_deadline_ms : Millis)

structure CompleteInput where
  approval_id : String
  identity : Identity
  execution_claim_id : String
  receipt : Receipt

structure ReconcileInput where
  approval_id : String
  identity : Identity
  argument_digest : String
  receipt : Receipt

structure MarkUncertainInput where
  approval_id : String
  identity : Identity
  execution_claim_id : String
  failed_at_ms : Millis

def validReviewInput (input : ReviewInput) : Bool :=
  APPROVAL_ID input.approval_id && DIGEST input.argument_digest && ID input.tenant_id &&
    ID input.subject_id && input.now_ms.isSome

inductive Call
  | create (binding : Binding)
  | review (input : ReviewInput)
  | approve (input : ApproveInput)
  | claim (input : ClaimInput) (executionClaimId : String)
  | complete (input : CompleteInput)
  | reconcile (input : ReconcileInput)
  | markUncertain (input : MarkUncertainInput)

def Call.approval_id : Call → String
  | .create binding => binding.approval_id
  | .review input => input.approval_id
  | .approve input => input.approval_id
  | .claim input _ => input.approval_id
  | .complete input => input.approval_id
  | .reconcile input => input.approval_id
  | .markUncertain input => input.approval_id

inductive Review
  | open (state : State) (binding : Binding)
  | completed (binding : Binding) (receipt : Receipt)

inductive ClaimResult
  | claimed (execution_claim_id : String) (execution_deadline_ms : ℚ) (binding : Binding)
  | completed (binding : Binding) (receipt : Receipt)
  | other (state : State) (binding : Binding)

inductive Answer
  | done (success : Bool)
  | review (result : Option Review)
  | claim (result : Option ClaimResult)
  | raised

structure Record (Time : Type) where
  approval_id : String
  identity : Identity
  call : ServiceCall
  argument_digest : String
  expires_at : Time
  state : State
  approved_at : Option Time
  execution_claim_id : Option String
  (execution_started_at execution_deadline_at : Option Time)
  result : Option Receipt
  (completed_at uncertain_at : Option Time)

def Record.pending {Time : Type} (binding : Binding) (expires_at : Time) : Record Time where
  approval_id := binding.approval_id
  identity := binding.identity
  call := binding.call
  argument_digest := binding.argument_digest
  expires_at := expires_at
  state := .pending
  approved_at := none
  execution_claim_id := none
  execution_started_at := none
  execution_deadline_at := none
  result := none
  completed_at := none
  uncertain_at := none

end LeafWeb.Approval
