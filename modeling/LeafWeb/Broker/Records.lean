import LeafWeb.Lib.Text
import Mathlib.Algebra.Order.Field.Rat

/-! The records of the broker's PostgreSQL authority. Instants are microseconds, amounts are exact. -/

namespace LeafWeb.Broker

open Lib

inductive BrokerError
  | valueError (message : String)
  | runtimeError (message : String)
  | integrityError (constraint : String)
  | raiseException (message : String)

structure LedgerEntry where
  ts : ℚ
  tenantId : String
  tool : Option String
  (engineOp apsEndpoint : String)
  apsLive : Bool
  (engineSeconds usdEst : Option ℚ)
  status : String
  jobId : Option String
  deriving DecidableEq

structure Cost where
  (engineSeconds usdEst : Option ℚ)
  deriving DecidableEq

structure Result where
  -- A result object: the members the broker reads, and the text of all the others. `ok` is whether
  -- the member is the JSON `true`; `degradedMode` is `none` unless it is a boolean.
  ok : Bool
  degradedMode : Option Bool
  cost : Option Cost
  others : String
  deriving DecidableEq

structure SuccessIntent where
  version : ℤ
  (eventKey tenantId requestFingerprint jobId workitemId : String)
  ledgerEntry : LedgerEntry
  result : Result
  httpStatus : ℤ
  deriving DecidableEq

inductive AdmissionState
  | leased (expiresAt : ℤ)
  | executing (startedAt : ℤ)
  | terminal (startedAt : Option ℤ) (result : Result) (httpStatus : ℤ) (terminalAt : ℤ)
  deriving DecidableEq

structure AdmissionRow where
  (eventKey tenantId requestFingerprint : String)
  state : AdmissionState
  leaseToken : String
  (apsLive accountedWork : Bool)
  reservedUsd : ℚ
  createdAt : ℤ
  terminalIntent : Option SuccessIntent

def AdmissionState.isLeased : AdmissionState → Bool
  | .leased _ => true
  | _ => false

def AdmissionState.isExecuting : AdmissionState → Bool
  | .executing _ => true
  | _ => false

def AdmissionState.isTerminal : AdmissionState → Bool
  | .terminal .. => true
  | _ => false

def AdmissionState.leasedAfter (now : ℤ) : AdmissionState → Bool
  | .leased expires => now < expires
  | _ => false

def AdmissionState.executionStartedAt : AdmissionState → Option ℤ
  | .leased _ => none
  | .executing started => some started
  | .terminal started .. => started

def AdmissionState.name : AdmissionState → String
  | .leased _ => "leased"
  | .executing _ => "executing"
  | .terminal .. => "terminal"

/-- `JOB_EVENT_RE`: the job id in front of `:broker-run` or `:broker-fallback`. -/
def jobOfEvent (eventKey : String) : Option String :=
  let cs := eventKey.toList
  let job := cs.take 36
  let suffix := cs.drop 36
  if job.length = 36 ∧ job.all (fun c => c.isDigit || ('a' ≤ c && c ≤ 'f') || c == '-') ∧
      (suffix = ":broker-run".toList ∨ suffix = ":broker-fallback".toList)
  then some (String.ofList job) else none

def normalizeLedgerJobId (jobId : Option String) : Option String :=
  jobId.filter fun s =>
    1 ≤ s.length && s.length ≤ 128 &&
      s.toList.all (fun c => c.isAlphanum || c == '.' || c == '_' || c == ':' || c == '-')

def isClose (a b : ℚ) : Bool :=
  |a - b| ≤ max (1 / 10 ^ 9 * max |a| |b|) (1 / 10 ^ 9)

def sameCost : Option ℚ → Option ℚ → Bool
  | some a, some b => 0 ≤ a && 0 ≤ b && isClose a b
  | _, _ => false

def validateSuccessIntent (intent : SuccessIntent) (admission : AdmissionRow)
    (eventKey tenantId : String) : Except BrokerError Unit :=
  let entry := intent.ledgerEntry
  let result := intent.result
  if intent.version ≠ 1 ∨ intent.eventKey ≠ eventKey ∨ intent.tenantId ≠ tenantId ∨
      intent.requestFingerprint ≠ admission.requestFingerprint ∨
      admission.tenantId ≠ tenantId ∨ admission.apsLive ≠ true then
    .error (.valueError "terminal intent identity mismatch")
  else if jobOfEvent eventKey ≠ some intent.jobId ∨ isBlank intent.workitemId then
    .error (.valueError "terminal intent requires job and WorkItem identity")
  else if entry.tenantId ≠ tenantId ∨ entry.apsLive ≠ true ∨ entry.jobId ≠ some intent.jobId ∨
      entry.status ≠ "ok" ∨ result.ok ≠ true ∨ result.degradedMode = none ∨
      ¬ (200 ≤ intent.httpStatus ∧ intent.httpStatus < 300) ∨ entry.apsEndpoint = "" then
    .error (.valueError "terminal intent is not a conformed success")
  else if entry.ts < 0 then
    .error (.valueError "terminal intent timestamp is invalid")
  else
    match result.cost with
    | none => .error (.valueError "terminal intent requires complete cost evidence")
    | some cost =>
      if sameCost entry.engineSeconds cost.engineSeconds ∧ sameCost entry.usdEst cost.usdEst then
        .ok ()
      else .error (.valueError "terminal intent cost is invalid or inconsistent")

def negative : Option ℚ → Bool
  | some x => x < 0
  | none => false

def validateLedgerNumbers (entry : LedgerEntry) : Except BrokerError Unit :=
  if negative entry.engineSeconds then
    .error (.valueError "broker ledger engine_seconds must be finite and nonnegative")
  else if negative entry.usdEst then
    .error (.valueError "broker ledger usd_est must be finite and nonnegative")
  else .ok ()

/-- The trigger `leaf_guard_broker_terminal_intent` on an update. -/
def guardTerminalIntent (old new : AdmissionRow) : Except BrokerError Unit :=
  let moved := new.eventKey ≠ old.eventKey ∨ new.tenantId ≠ old.tenantId ∨
    new.requestFingerprint ≠ old.requestFingerprint ∨ new.leaseToken ≠ old.leaseToken ∨
    new.apsLive ≠ old.apsLive
  if old.terminalIntent.isSome then
    if new.terminalIntent ≠ old.terminalIntent ∨ moved then
      .error (.raiseException "broker terminal intent is immutable")
    else .ok ()
  else if new.terminalIntent.isSome ∧ (¬ old.state.isExecuting ∨ ¬ new.state.isExecuting ∨ moved) then
    .error (.raiseException "broker terminal intent requires an executing admission")
  else .ok ()

end LeafWeb.Broker
