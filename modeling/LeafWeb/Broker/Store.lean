import LeafWeb.Broker.Records
import LeafWeb.Lib.Table
import LeafWeb.Lib.Transition

/-! The serialisable transactions of `PostgresBrokerStore`. Each reads `NOW()` as of its beginning; one that
raises is rolled back. -/

namespace LeafWeb.Broker

open Lib AdmissionRow

structure LedgerRow where
  eventKey : String
  entry : LedgerEntry

inductive SlotState
  | held
  | released (reason : String)
  deriving DecidableEq

structure SlotRow where
  (eventKey tenantId : String)
  state : SlotState

structure AuditRow where
  (eventKey tenantId resolution operatorId reason evidenceRef : String)
  terminalStatus : ℤ

structure Db where
  admissions : Table eventKey
  ledger : Table LedgerRow.eventKey
  slots : Table SlotRow.eventKey
  audit : List AuditRow

def Db.empty : Db := ⟨.empty, .empty, .empty, []⟩

def Db.modifyAdmission (db : Db) (key : String) (f : AdmissionRow → AdmissionRow)
    (hf : ∀ a, (f a).eventKey = a.eventKey) : Db :=
  { db with admissions := db.admissions.modify key f hf }

def updateAdmission (db : Db) (key : String) (cond : AdmissionRow → Bool)
    (f : AdmissionRow → AdmissionRow) (hf : ∀ a, (f a).eventKey = a.eventKey) : Except BrokerError (Option Db) :=
  match db.admissions.find key with
  | none => .ok none
  | some a =>
    if cond a then do
      guardTerminalIntent a (f a)
      .ok (some (db.modifyAdmission key f hf))
    else .ok none

def requireRow (updated : Option Db) (failure : BrokerError) : Except BrokerError Db :=
  match updated with
  | some db => .ok db
  | none => .error failure

def Db.ownedBy (db : Db) (key tenantId : String) : Bool :=
  (db.admissions.find key).any (fun a => a.tenantId = tenantId)

def insertLedger (db : Db) (key : String) (entry : LedgerEntry) : Except BrokerError Db :=
  if db.ownedBy key entry.tenantId then
    match db.ledger.insert ⟨key, entry⟩ with
    | some ledger => .ok { db with ledger := ledger }
    | none => .error (.integrityError "broker_usage_ledger_pkey")
  else .error (.integrityError "broker_usage_ledger_admission_fk")

def insertLedgerOnce (db : Db) (key : String) (entry : LedgerEntry) : Except BrokerError Db :=
  -- The insertion with `ON CONFLICT (event_key) DO NOTHING`.
  if (db.ledger.find key).isSome then .ok db else insertLedger db key entry

def holdSlot (db : Db) (key tenantId : String) : Except BrokerError Db :=
  if db.ownedBy key tenantId then
    match db.slots.insert ⟨key, tenantId, .held⟩ with
    | some slots => .ok { db with slots := slots }
    | none => .error (.integrityError "broker_aps_slots_pkey")
  else .error (.integrityError "broker_aps_slots_admission_fk")

def SlotRow.release (reason : String) (s : SlotRow) : SlotRow :=
  if s.state = .held then { s with state := .released reason } else s

lemma SlotRow.release_eventKey (reason : String) (s : SlotRow) : (s.release reason).eventKey = s.eventKey := by
  rw [SlotRow.release]
  split_ifs <;> rfl

def releaseSlot (db : Db) (key reason : String) : Db :=
  { db with slots := db.slots.modify key (SlotRow.release reason) (SlotRow.release_eventKey reason) }

def insertAudit (db : Db) (row : AuditRow) : Except BrokerError Db :=
  if row.resolution = "confirmed_failed_no_charge" ∨ row.resolution = "verified_terminal" then
    .ok { db with audit := db.audit ++ [row] }
  else .error (.integrityError "broker_admission_resolution_allowed")

def heldSlots (db : Db) : ℕ := db.slots.total fun s => if s.state = .held then 1 else 0

structure RunRequest where
  (eventKey tenantId : String)
  apsLive : Bool
  estimatedUsd : ℚ
  spendCap : Option ℚ
  dailyLimit : Option ℤ
  requestFingerprint : String
  leaseSeconds : ℤ

inductive Decision
  | collision
  | mismatch
  | replay (result : Result) (httpStatus : ℤ)
  | executing
  | leased
  | spendQuota (spent reserved estimatedUsd cap : ℚ) (leaseToken : String)
  | dailyQuota (used : ℕ) (limit : ℤ) (leaseToken : String)
  | acquired (leaseToken : String) (reclaimed : Bool)
  deriving DecidableEq

def RunRequest.key (r : RunRequest) : String := strip r.eventKey

def RunRequest.estimate (r : RunRequest) : ℚ := max 0 r.estimatedUsd

def duplicate (a : AdmissionRow) (r : RunRequest) (now : ℤ) : Option Decision :=
  if a.tenantId ≠ r.tenantId then some .collision
  else if a.requestFingerprint ≠ r.requestFingerprint then some .mismatch
  else
    match a.state with
    | .terminal _ result httpStatus _ => some (.replay result httpStatus)
    | .executing _ => some .executing
    | .leased expires => if now < expires then some .leased else none

def LedgerEntry.counted (entry : LedgerEntry) : ℚ :=
  if entry.status = "quota_exceeded" ∨ entry.status = "TENANT_DISABLED" then 0
  else entry.usdEst.getD 0

def spentUsd (db : Db) (tenantId : String) : ℚ :=
  db.ledger.total fun l => if l.entry.tenantId = tenantId then l.entry.counted else 0

def reservedUsd (db : Db) (tenantId : String) (now : ℤ) : ℚ :=
  db.admissions.total fun a =>
    if a.tenantId = tenantId ∧ (a.state.isExecuting ∨ a.state.leasedAfter now) then a.reservedUsd
    else 0

def dayLength : ℤ := 86400 * 1000000

def startOfDay (now : ℤ) : ℤ := now / dayLength * dayLength

def usedToday (db : Db) (tenantId : String) (now : ℤ) : ℕ :=
  db.admissions.total fun a =>
    if a.tenantId = tenantId ∧ a.apsLive ∧ startOfDay now ≤ a.createdAt ∧
        (a.accountedWork ∨ a.state.leasedAfter now) then 1
    else 0

def overCap (cap : Option ℚ) (amount : ℚ) : Option ℚ := cap.filter fun cap => cap + 1 / 10 ^ 12 < amount

def overLimit (r : RunRequest) (used : ℕ) : Option ℤ :=
  if r.apsLive then r.dailyLimit.filter fun limit => limit ≤ used else none

def quota (db : Db) (r : RunRequest) (token : String) (now : ℤ) (reclaim : Bool) : Decision × ℚ :=
  let spent := spentUsd db r.tenantId
  let reserved := reservedUsd db r.tenantId now
  match overCap r.spendCap (spent + reserved + r.estimate) with
  | some cap => (.spendQuota spent reserved r.estimate cap token, 0)
  | none =>
    match overLimit r (usedToday db r.tenantId now) with
    | some limit => (.dailyQuota (usedToday db r.tenantId now) limit token, 0)
    | none => (.acquired token reclaim, r.estimate)

def RunRequest.expiry (r : RunRequest) (now : ℤ) : ℤ := now + r.leaseSeconds * 1000000

def AdmissionRow.reclaim (r : RunRequest) (token : String) (now : ℤ) (reserved : ℚ)
    (a : AdmissionRow) : AdmissionRow :=
  { a with state := .leased (r.expiry now), leaseToken := token, apsLive := r.apsLive,
           reservedUsd := reserved, createdAt := now }

lemma AdmissionRow.reclaim_eventKey (r : RunRequest) (token : String) (now : ℤ) (reserved : ℚ)
    (a : AdmissionRow) : (a.reclaim r token now reserved).eventKey = a.eventKey := rfl

def RunRequest.row (r : RunRequest) (token : String) (now : ℤ) (reserved : ℚ) : AdmissionRow where
  eventKey := r.key
  tenantId := r.tenantId
  requestFingerprint := r.requestFingerprint
  state := .leased (r.expiry now)
  leaseToken := token
  apsLive := r.apsLive
  accountedWork := false
  reservedUsd := reserved
  createdAt := now
  terminalIntent := none

def isFingerprint (s : String) : Bool :=
  s.toList.length = 64 && s.toList.all fun c => c.isDigit || ('a' ≤ c && c ≤ 'f')

def insertLease (db : Db) (row : AdmissionRow) : Except BrokerError Db :=
  if isFingerprint row.requestFingerprint then
    match db.admissions.insert row with
    | some admissions => .ok { db with admissions := admissions }
    | none => .error (.integrityError "broker_run_admissions_pkey")
  else .error (.integrityError "broker_run_admissions_request_fingerprint_check")

def reclaimLease (db : Db) (r : RunRequest) (token : String) (now : ℤ) (reserved : ℚ) : Except BrokerError Db := do
  let updated ← updateAdmission db r.key (fun a => a.state.isLeased)
    (reclaim r token now reserved) (reclaim_eventKey r token now reserved)
  requireRow updated (.runtimeError "expired broker lease could not be reclaimed")

def admitRun (db : Db) (r : RunRequest) (token : String) (now : ℤ) : Except BrokerError (Decision × Db) :=
  if r.key = "" then .error (.valueError "broker run event_key must not be empty")
  else if r.leaseSeconds < 1 ∨ 300 < r.leaseSeconds then
    .error (.valueError "broker admission lease must be between 1 and 300 seconds")
  else
    match db.admissions.find r.key with
    | none => do
      let (decision, reserved) := quota db r token now false
      let db' ← insertLease db (r.row token now reserved)
      .ok (decision, db')
    | some a =>
      match duplicate a r now with
      | some decision => .ok (decision, db)
      | none => do
        let (decision, reserved) := quota db r token now true
        let db' ← reclaimLease db r token now reserved
        .ok (decision, db')

structure Owner where
  (eventKey tenantId leaseToken : String)

def Owner.owns (o : Owner) (a : AdmissionRow) : Bool := a.tenantId = o.tenantId && a.leaseToken = o.leaseToken

def AdmissionRow.lapse (now : ℤ) (a : AdmissionRow) : AdmissionRow :=
  { a with state := .leased now }

lemma AdmissionRow.lapse_eventKey (now : ℤ) (a : AdmissionRow) : (a.lapse now).eventKey = a.eventKey := rfl

def AdmissionRow.start (now : ℤ) (apsLive : Bool) (a : AdmissionRow) : AdmissionRow :=
  { a with state := .executing now, accountedWork := apsLive }

lemma AdmissionRow.start_eventKey (now : ℤ) (apsLive : Bool) (a : AdmissionRow) :
    (a.start now apsLive).eventKey = a.eventKey := rfl

def startExecution (db : Db) (o : Owner) (apsLive : Bool) (now : ℤ) : Except BrokerError (Bool × Db) := do
  let updated ← updateAdmission db o.eventKey
    (fun a => o.owns a && a.state.leasedAfter now) (start now apsLive) (start_eventKey now apsLive)
  let db' ← requireRow updated (.runtimeError "broker execution lease is missing, expired, or not owned")
  if apsLive then do
    let db'' ← holdSlot db' o.eventKey o.tenantId
    .ok (true, db'')
  else .ok (true, db')

def markExecutionStarted (db : Db) (o : Owner) (apsLive : Bool) (maxConcurrency : ℤ) (now : ℤ) :
    Except BrokerError (Bool × Db) :=
  if maxConcurrency < 1 then .error (.valueError "APS_MAX_CONCURRENCY must be at least 1")
  else if apsLive ∧ maxConcurrency ≤ heldSlots db then do
    let updated ← updateAdmission db o.eventKey (fun a => o.owns a && a.state.isLeased)
      (lapse now) (lapse_eventKey now)
    .ok (false, updated.getD db)
  else startExecution db o apsLive now

def lockIntentAdmission (db : Db) (eventKey tenantId : String) : Except BrokerError AdmissionRow :=
  match db.admissions.find eventKey with
  | none => .error (.valueError "terminal intent admission identity mismatch")
  | some a =>
    if a.tenantId ≠ tenantId then
      .error (.valueError "terminal intent admission identity mismatch")
    else .ok a

def intentOf (a : AdmissionRow) (eventKey tenantId : String) : Except BrokerError SuccessIntent :=
  match a.terminalIntent with
  | none => .error (.valueError "invalid terminal intent shape")
  | some intent => do
    validateSuccessIntent intent a eventKey tenantId
    .ok intent

def checkIntentLedger (db : Db) (intent : SuccessIntent) : Except BrokerError (Option LedgerRow) :=
  match db.ledger.find intent.eventKey with
  | none => .ok none
  | some row =>
    if row.entry ≠ intent.ledgerEntry then
      .error (.valueError "existing ledger conflicts with terminal intent")
    else .ok (some row)

def AdmissionRow.stage (intent : SuccessIntent) (a : AdmissionRow) : AdmissionRow :=
  { a with terminalIntent := some intent }

lemma AdmissionRow.stage_eventKey (intent : SuccessIntent) (a : AdmissionRow) :
    (a.stage intent).eventKey = a.eventKey := rfl

def stageSuccessIntent (db : Db) (o : Owner) (payload : SuccessIntent) : Except BrokerError Db := do
  let a ← lockIntentAdmission db o.eventKey o.tenantId
  validateSuccessIntent payload a o.eventKey o.tenantId
  if a.state.isExecuting ∧ a.leaseToken = o.leaseToken then do
    let _ ← checkIntentLedger db payload
    if a.terminalIntent.isSome then do
      let intent ← intentOf a o.eventKey o.tenantId
      if intent = payload then .ok db
      else .error (.valueError "terminal intent is write once")
    else do
      let updated ← updateAdmission db o.eventKey (fun _ => true) (stage payload)
        (stage_eventKey payload)
      .ok (updated.getD db)
  else .error (.valueError "terminal intent requires current executing owner")

structure Terminal where
  entry : LedgerEntry
  result : Result
  httpStatus : ℤ
  deriving DecidableEq

def SuccessIntent.terminal (i : SuccessIntent) : Terminal := ⟨i.ledgerEntry, i.result, i.httpStatus⟩

def LedgerEntry.normalized (entry : LedgerEntry) : LedgerEntry :=
  { entry with jobId := normalizeLedgerJobId entry.jobId }

def AdmissionRow.finish (t : Terminal) (accounted : Option Bool) (now : ℤ) (a : AdmissionRow) : AdmissionRow :=
  { a with state := .terminal a.state.executionStartedAt t.result t.httpStatus now,
           reservedUsd := 0, accountedWork := accounted.getD a.accountedWork }

lemma AdmissionRow.finish_eventKey (t : Terminal) (accounted : Option Bool) (now : ℤ)
    (a : AdmissionRow) : (a.finish t accounted now).eventKey = a.eventKey := rfl

def storable (n : ℤ) : Bool := -2 ^ 31 ≤ n && n < 2 ^ 31

def finishAdmission (db : Db) (key : String) (cond : AdmissionRow → Bool) (t : Terminal)
    (accounted : Option Bool) (now : ℤ) (failure : BrokerError) : Except BrokerError Db :=
  -- the status column has the type `INTEGER`
  if storable t.httpStatus then do
    let updated ← updateAdmission db key
      (fun a => a.tenantId = t.entry.tenantId && cond a) (finish t accounted now)
      (finish_eventKey t accounted now)
    requireRow updated failure
  else .error (.integrityError "http_status")

structure AuditNote where
  (operatorId reason evidenceRef : String)

def reconcilerNote (eventKey tenantId : String) : AuditNote where
  operatorId := "reconciler"
  reason := "committed paid-success terminal intent"
  evidenceRef := "terminal-intent:v1:" ++ tenantId ++ ":" ++ eventKey

def AuditNote.row (n : AuditNote) (eventKey tenantId resolution : String) (status : ℤ) : AuditRow :=
  ⟨eventKey, tenantId, resolution, n.operatorId, n.reason, n.evidenceRef, status⟩

def auditIntent (db : Db) (eventKey tenantId : String) (status : ℤ) (note : Option AuditNote) :
    Except BrokerError Db :=
  match note with
  | none => .ok db
  | some n => insertAudit db (n.row eventKey tenantId "verified_terminal" status)

def conflictsWithIntent (db : Db) (a : AdmissionRow) (eventKey : String) (intent : SuccessIntent)
    (ledger : Option LedgerRow) (result : Result) (httpStatus : ℤ) : Bool :=
  ledger.isNone || result ≠ intent.result || httpStatus ≠ intent.httpStatus ||
    a.reservedUsd ≠ 0 || (db.slots.find eventKey).any (fun s => s.state = .held)

def settleIntent (db : Db) (a : AdmissionRow) (eventKey tenantId : String)
    (note : Option AuditNote) (now : ℤ) : Except BrokerError (Bool × Db) := do
  -- `true` is the answer `already_settled`.
  let intent ← intentOf a eventKey tenantId
  let ledger ← checkIntentLedger db intent
  match a.state with
  | .terminal _ result httpStatus _ =>
    if conflictsWithIntent db a eventKey intent ledger result httpStatus then
      .error (.valueError "terminal state conflicts with terminal intent")
    else .ok (true, db)
  | .leased _ => .error (.valueError "terminal intent admission is not executing")
  | .executing _ => do
    let db₁ ← insertLedgerOnce db eventKey intent.ledgerEntry
    let db₂ ← finishAdmission db₁ eventKey (fun a => a.state.isExecuting) intent.terminal none now
      (.valueError "terminal intent settlement transition failed")
    let db₃ ← auditIntent (releaseSlot db₂ eventKey "known_terminal") eventKey tenantId intent.httpStatus note
    .ok (false, db₃)

def settleSuccessIntent (db : Db) (eventKey tenantId actor : String) (now : ℤ) : Except BrokerError (Bool × Db) :=
  if actor = "foreground" ∨ actor = "reconciler" then do
    let a ← lockIntentAdmission db eventKey tenantId
    settleIntent db a eventKey tenantId
      (if actor = "reconciler" then some (reconcilerNote eventKey tenantId) else none) now
  else .error (.valueError "invalid terminal intent settlement actor")

def completeRun (db : Db) (o : Owner) (t : Terminal) (now : ℤ) : Except BrokerError Db := do
  let key := strip o.eventKey
  validateLedgerNumbers t.entry
  match db.admissions.find key with
  | none => .error (.runtimeError "broker terminal write does not own this event")
  | some a =>
    if a.tenantId ≠ o.tenantId then
      .error (.runtimeError "broker terminal write does not own this event")
    else if a.terminalIntent.isSome then do
      let intent ← intentOf a key o.tenantId
      if t.entry.tenantId = o.tenantId ∧ t = intent.terminal ∧ a.leaseToken = o.leaseToken then do
        let (_, db') ← settleIntent db a key o.tenantId none now
        .ok db'
      else .error (.valueError "completion conflicts with terminal intent")
    else if a.state.isTerminal then .ok db
    else if a.leaseToken ≠ o.leaseToken then
      .error (.runtimeError "broker terminal write has a stale lease token")
    else do
      let db₁ ← insertLedgerOnce db key t.entry.normalized
      let db₂ ← finishAdmission db₁ key
        (fun a => a.leaseToken = o.leaseToken && (a.state.isLeased || a.state.isExecuting)) t none
        now (.runtimeError "broker terminal state transition failed")
      .ok (releaseSlot db₂ key "known_terminal")

def reconcileExecuting (db : Db) (eventKey tenantId resolution : String) (note : AuditNote)
    (t : Terminal) (now : ℤ) : Except BrokerError (Bool × Db) := do
  validateLedgerNumbers t.entry
  match db.admissions.find eventKey with
  | none => .error (.runtimeError "executing broker admission was not found")
  | some a =>
    if a.tenantId ≠ tenantId then
      .error (.runtimeError "executing broker admission was not found")
    else if a.terminalIntent.isSome then do
      let intent ← intentOf a eventKey tenantId
      if resolution = "verified_terminal" ∧ t = intent.terminal then
        settleIntent db a eventKey tenantId (some note) now
      else .error (.valueError "resolution conflicts with terminal intent")
    else if a.state.isExecuting then do
      let db₁ ← insertLedger db eventKey t.entry.normalized
      let db₂ ← finishAdmission db₁ eventKey (fun a => a.state.isExecuting) t
        (some (resolution ≠ "confirmed_failed_no_charge")) now
        (.runtimeError "executing broker admission changed during resolution")
      let db₃ ← insertAudit (releaseSlot db₂ eventKey resolution)
        (note.row eventKey t.entry.tenantId resolution t.httpStatus)
      .ok (false, db₃)
    else
      .error (.runtimeError ("broker admission is '" ++ a.state.name ++ "', not 'executing'"))

inductive Event
  | admitRun (request : RunRequest) (token : String) (now : ℤ)
  | mark (owner : Owner) (apsLive : Bool) (maxConcurrency : ℤ) (now : ℤ)
  | stage (owner : Owner) (intent : SuccessIntent)
  | settle (eventKey tenantId actor : String) (now : ℤ)
  | complete (owner : Owner) (terminal : Terminal) (now : ℤ)
  | reconcile (eventKey tenantId resolution : String) (note : AuditNote) (terminal : Terminal)
      (now : ℤ)

inductive Answer
  | admitted (decision : Decision)
  | started (execute : Bool)
  | staged
  | settled (alreadySettled : Bool)
  | completed
  deriving DecidableEq

def transact (db : Db) : Event → Except BrokerError (Answer × Db)
  | .admitRun r token now => (admitRun db r token now).map fun (d, db') => (.admitted d, db')
  | .mark o live max now =>
    (markExecutionStarted db o live max now).map fun (b, db') => (.started b, db')
  | .stage o intent => (stageSuccessIntent db o intent).map fun db' => (.staged, db')
  | .settle key tenant actor now =>
    (settleSuccessIntent db key tenant actor now).map fun (b, db') => (.settled b, db')
  | .complete o t now => (completeRun db o t now).map fun db' => (.completed, db')
  | .reconcile key tenant resolution note t now =>
    (reconcileExecuting db key tenant resolution note t now).map fun (b, db') => (.settled b, db')

def step (db : Db) (e : Event) : Except BrokerError Answer × Db :=
  match transact db e with
  | .ok (answer, db') => (.ok answer, db')
  | .error x => (.error x, db)

end LeafWeb.Broker
