import LeafWeb.Lib.Gather
import LeafWeb.Lib.Rounding
import LeafWeb.Lib.SortOn
import LeafWeb.Lib.Statements
import Mathlib.Data.Prod.Lex
import Mathlib.Data.String.Basic

/-! The run store of the Lab. A transaction holds the lock of its tenant and commits as a whole or leaves the
tables as they were. Instants are microseconds. -/

namespace LeafWeb.Lab

open Lib

def maxEvents : ℕ := 10000

def maxQueuedPerTenant : ℕ := 16

def maxActivePerTenant : ℕ := 4

def minutes (n : ℤ) : ℤ := n * 60 * 1000000

def hours (n : ℤ) : ℤ := minutes (n * 60)

def submissionTtl : ℤ := hours 24

inductive RunError
  | invalidGraph (code : String)
  | tooLarge (code : String)
  | submissionConflict (code : String)
  | notFound (code : String)
  | valueError (code : String)
  | overflow
  -- a key of the tables that is taken
  | integrity
  deriving DecidableEq

inductive RunState
  | queued
  | running
  | finished
  | failed
  | cancelled
  deriving DecidableEq

def RunState.live : RunState → Bool
  | .queued | .running => true
  | .finished | .failed | .cancelled => false

def pinChar (c : Char) : Bool := c.isAlphanum || c = '.' || c = '_' || c = ':' || c = '-'

def pin (value : String) : Except RunError Unit :=
  refuse (¬(value.toList.all pinChar ∧ 0 < value.length ∧ value.length ≤ 128))
    (.invalidGraph "invalid_lab_run_pin")

def checkTenant (tenant : String) : Except RunError Unit :=
  refuse (tenant.isEmpty ∨ 200 < tenant.length) (.invalidGraph "invalid_tenant")

def leaseTtl (seconds : ℚ) : Except RunError ℤ := do
  refuse (seconds ≤ 0) (.valueError "invalid_lab_lease_ttl")
  return roundEven (seconds * 10 ^ 6)

def lastInstant : ℤ := 253402300799999999

def later (now duration : ℤ) : Except RunError ℤ := do
  refuse (lastInstant < now + duration) .overflow
  return now + duration

def checkColor (color : String) : Except RunError Unit := do
  pin color
  refuse (color ≠ "active" ∧ color ≠ "idle") (.invalidGraph "invalid_lab_worker_color")

structure Pins where
  docId : String
  graphRevision : ℤ
  (graphSha256 registryDigest opsRevision inputDigest adapterRevision buildRevision : String)
  deriving DecidableEq

structure CorpusAuthority where
  (tenantId projectId actorId docId : String)
  graphRevision : ℤ
  graphSha256 : String
  deriving DecidableEq

structure RunRow where
  (tenantId runId : String)
  pins : Pins
  state : RunState
  leaseOwner : Option String
  leaseFence : ℕ
  leaseExpiresAt : Option ℤ
  claimedBy : Option (String × String)
  cancelRequested : Option (ℤ × String)
  corpusAuthority : Option CorpusAuthority
  (nextSeq eventCount : ℕ)
  (createdAt updatedAt : ℤ)
  finishedAt : Option ℤ
  deriving DecidableEq

def RunRow.key (r : RunRow) : String × String := (r.tenantId, r.runId)

structure EventRow where
  run : String × String
  seq : ℕ
  block : Option String
  (kind payload : String)
  createdAt : ℤ

def EventRow.key (e : EventRow) : (String × String) × ℕ := (e.run, e.seq)

abbrev Events := Table EventRow.key

structure RunStore where
  runs : Table RunRow.key
  events : Events

def RunStore.empty : RunStore := ⟨.empty, .empty⟩

structure Log where
  events : Events
  (seq count : ℕ)

structure Event where
  block : Option String
  (kind payload : String)

def eventsOf (events : Events) (run : String × String) : List EventRow := events.rows.filter fun e => e.run = run

def insertEvent (events : Events) (run : String × String) (seq : ℕ) (e : Event) (now : ℤ) :
    Except RunError Events :=
  demand (events.insert ⟨run, seq, e.block, e.kind, e.payload, now⟩) .integrity

def latest (oldest : List EventRow) (block : Option String) : Option ℕ :=
  (oldest.filter fun e => e.block = block).getLast?.map EventRow.seq

def removable (oldest : List EventRow) (e : EventRow) : Bool :=
  e.block.isSome && latest oldest e.block ≠ some e.seq

def blockEvents (events : Events) (run : String × String) (cutoff : ℕ) : List EventRow :=
  (eventsOf events run).filter fun e => e.seq ≤ cutoff && e.block.isSome

def greatest (es : List EventRow) : List ℕ :=
  (es.filter fun e => es.all fun e' => !decide (e'.block = e.block) || decide (e'.seq ≤ e.seq)).map EventRow.seq

def deletable (events : Events) (run : String × String) (cutoff : ℕ) (e : EventRow) : Bool :=
  e.run = run && e.seq ≤ cutoff && e.block.isSome && !(greatest (blockEvents events run cutoff)).contains e.seq

def Event.coalesced (removed : ℕ) : Event := ⟨none, "coalesced", s!"\x7b\"count\": {removed}\x7d"⟩

def oldestEvents (events : Events) (run : String × String) (n : ℕ) : List EventRow :=
  (sortOn EventRow.seq (eventsOf events run)).take n

def coalesce (run : String × String) (l : Log) (now : ℤ) : Except RunError Log := do
  let oldest := oldestEvents l.events run (l.count / 2)
  let removed := oldest.filter (removable oldest)
  refuse (removed = []) (.tooLarge "lab_run_event_cap")
  let cutoff ← demand oldest.getLast? .integrity
  let kept := l.events.deleteWhere (deletable l.events run cutoff.seq)
  let events ← insertEvent kept run l.seq (.coalesced removed.length) now
  return ⟨events, l.seq + 1, l.count - removed.length + 1⟩

def logEvent (run : String × String) (now : ℤ) (l : Log) (e : Event) : Except RunError Log := do
  let events ← insertEvent l.events run l.seq e now
  let l' : Log := ⟨events, l.seq + 1, l.count + 1⟩
  if l'.count < maxEvents then return l'
  else do
    let l'' ← coalesce run l' now
    refuse (maxEvents < l''.count) (.tooLarge "lab_run_event_cap")
    return l''

variable (s : RunStore)

def hexDigit (c : Char) : Bool := c.isDigit || ('a' ≤ c && c ≤ 'f')

def decimal (digits : List Char) : ℕ := digits.foldl (fun n c => 10 * n + (c.toNat - '0'.toNat)) 0

def submissionIssued (submissionId : String) : Option ℕ :=
  let text := submissionId.toList
  let digits := (text.drop 3).take 13
  if text.take 3 = ['v', '1', '.'] ∧ digits.length = 13 ∧ digits.all Char.isDigit ∧
      (text.drop 16).take 1 = ['.'] ∧ (text.drop 17).length = 32 ∧ (text.drop 17).all hexDigit then
    some (decimal digits)
  else none

structure Submission where
  (submissionId authority : String)

def submissionRunId (digest : String → String → String → String) (tenant : String) (b : Submission)
    (now : ℤ) : Except RunError String := do
  let issued ← demand (submissionIssued b.submissionId) (.invalidGraph "invalid_lab_submission_id")
  let age := now - issued * 1000
  refuse (age < -minutes 5 ∨ submissionTtl ≤ age) (.submissionConflict "lab_submission_expired")
  return "s1." ++ digest tenant b.authority b.submissionId

def uuidChar (i : ℕ) (c : Char) : Bool := if i = 8 ∨ i = 13 ∨ i = 18 ∨ i = 23 then c = '-' else hexDigit c

def canonicalUuid (text : String) : Bool :=
  text.toList.length = 36 && text.toList.zipIdx.all fun p => uuidChar p.2 p.1

def validateCorpusAuthority (a : CorpusAuthority) : Except RunError Unit :=
  refuse (¬([a.tenantId, a.projectId, a.actorId].all canonicalUuid ∧ 1 ≤ a.graphRevision ∧
      a.docId ≠ "" ∧ a.graphSha256.length = 64))
    (.invalidGraph "lab_corpus_authority_mismatch")

structure CreateArgs where
  (docId runId : String)
  graphRevision : ℤ
  (graphSha256 opsRevision inputDigest adapterRevision buildRevision : String)
  registryDigest : Option String
  submission : Option Submission
  reconcileOnly : Bool
  corpusAuthority : Option CorpusAuthority

def CreateArgs.pins (a : CreateArgs) (digest : String) : Pins :=
  ⟨a.docId, a.graphRevision, a.graphSha256, digest, a.opsRevision, a.inputDigest, a.adapterRevision,
    a.buildRevision⟩

def checkCreate (digest : String → String → String → String) (registryDigest tenant : String)
    (a : CreateArgs) (called : ℤ) : Except RunError String := do
  for value in [a.docId, a.runId, a.graphSha256, a.opsRevision, a.inputDigest, a.adapterRevision,
    a.buildRevision] do
    pin value
  refuse (a.graphRevision < 1) (.invalidGraph "invalid_lab_graph_revision")
  match a.corpusAuthority with
  | none => pure ()
  | some c => do
    validateCorpusAuthority c
    refuse (¬(c.tenantId = tenant ∧ c.docId = a.docId ∧ c.graphRevision = a.graphRevision ∧
        c.graphSha256 = a.graphSha256)) (.invalidGraph "lab_corpus_authority_mismatch")
  match a.registryDigest with
  | none => pure ()
  | some d => do
    pin d
    refuse (d ≠ registryDigest) (.invalidGraph "lab_registry_digest_mismatch")
  refuse (a.reconcileOnly ∧ a.submission = none) (.invalidGraph "invalid_lab_submission_recovery")
  match a.submission with
  | none => return a.runId
  | some b => do
    refuse (b.authority = "") (.invalidGraph "invalid_lab_submission_authority")
    submissionRunId digest tenant b called

def RunRow.queued (tenant runId : String) (pins : Pins) (corpusAuthority : Option CorpusAuthority)
    (now : ℤ) : RunRow where
  tenantId := tenant
  runId := runId
  pins := pins
  state := .queued
  leaseOwner := none
  leaseFence := 0
  leaseExpiresAt := none
  claimedBy := none
  cancelRequested := none
  corpusAuthority := corpusAuthority
  nextSeq := 0
  eventCount := 0
  createdAt := now
  updatedAt := now
  finishedAt := none

def queuedRuns (tenant : String) : ℕ := s.runs.rows.countP fun r => r.tenantId = tenant && r.state = .queued

def enqueue (tenant runId : String) (pins : Pins) (corpusAuthority : Option CorpusAuthority)
    (now : ℤ) : Except RunError (RunRow × RunStore) := do
  refuse (maxQueuedPerTenant ≤ queuedRuns s tenant) (.tooLarge "lab_run_queue_full")
  let row := RunRow.queued tenant runId pins corpusAuthority now
  let runs ← demand (s.runs.insert row) .integrity
  return (row, { s with runs })

/-- The clock is read when the call is made and again under the lock. -/
def create (digest : String → String → String → String) (registryDigest tenant : String)
    (a : CreateArgs) (called now : ℤ) : Except RunError (RunRow × RunStore) := do
  let runId ← checkCreate digest registryDigest tenant a called
  checkTenant tenant
  match a.submission with
  | none => enqueue s tenant runId (a.pins registryDigest) a.corpusAuthority now
  | some b => do
    let _ ← submissionRunId digest tenant b now
    match s.runs.find (tenant, runId) with
    | some existing => do
      refuse (existing.pins ≠ a.pins registryDigest) (.submissionConflict "lab_submission_mismatch")
      return (existing, s)
    | none => do
      refuse a.reconcileOnly (.submissionConflict "lab_submission_missing")
      enqueue s tenant runId (a.pins registryDigest) a.corpusAuthority now

def RunRow.active (now : ℤ) (r : RunRow) : Bool := r.state = .running && r.leaseExpiresAt.any (now < ·)

def activeRuns (tenant : String) (now : ℤ) : ℕ := s.runs.rows.countP fun r => r.tenantId = tenant && r.active now

structure Grant where
  owner : String
  fence : ℕ
  expiresAt : ℤ
  takeover : Bool
  committedSeq : ℤ

def jsonText : Option String → String
  | none => "null"
  | some text => "\"" ++ text ++ "\""

def Event.takeover (previousFence : ℕ) (previousOwner : Option String) : Event :=
  ⟨none, "lease_takeover", s!"\x7b\"previous_fence\": {previousFence}, \"previous_owner\": " ++
    jsonText previousOwner ++ "\x7d"⟩

def RunRow.log (r : RunRow) (events : Events) : Log := ⟨events, r.nextSeq, r.eventCount⟩

def RunRow.claim (owner buildRevision color : String) (expires now : ℤ) (l : Log) (r : RunRow) : RunRow :=
  { r with
    state := .running, leaseOwner := some owner, leaseFence := r.leaseFence + 1,
    leaseExpiresAt := some expires, claimedBy := some (buildRevision, color), nextSeq := l.seq,
    eventCount := l.count, updatedAt := now }

lemma RunRow.claim_key (owner buildRevision color : String) (expires now : ℤ) (l : Log) (r : RunRow) :
    (r.claim owner buildRevision color expires now l).key = r.key := rfl

def claimable (row : RunRow) (now : ℤ) : Bool := row.state.live && !row.leaseExpiresAt.any (now < ·)

def takeOver (row : RunRow) (now : ℤ) : Except RunError Log :=
  if 0 < row.leaseFence then
    logEvent row.key now (row.log s.events) (.takeover row.leaseFence row.leaseOwner)
  else return row.log s.events

def claim (tenant runId owner : String) (ttl : ℚ) (buildRevision color : String) (now : ℤ) :
    Except RunError (Option Grant × RunStore) := do
  pin runId
  pin owner
  pin buildRevision
  checkColor color
  let duration ← leaseTtl ttl
  checkTenant tenant
  match (s.runs.find (tenant, runId)).filter fun row => claimable row now with
  | none => return (none, s)
  | some row =>
    if maxActivePerTenant ≤ activeRuns s tenant now then return (none, s)
    else do
      let l ← takeOver s row now
      let expires ← later now duration
      return (some ⟨owner, row.leaseFence + 1, expires, 0 < row.leaseFence, l.seq - 1⟩,
        { runs := s.runs.modify (tenant, runId) (.claim owner buildRevision color expires now l)
            (RunRow.claim_key owner buildRevision color expires now l)
          events := l.events })

def holder (tenant runId owner : String) (fence : ℤ) (now : ℤ) : Option RunRow :=
  (s.runs.find (tenant, runId)).filter fun row =>
    row.state = .running && row.leaseOwner = some owner && row.leaseFence = fence &&
      row.leaseExpiresAt.any (now < ·)

def RunRow.beat (expires now : ℤ) (r : RunRow) : RunRow :=
  { r with leaseExpiresAt := some expires, updatedAt := now }

lemma RunRow.beat_key (expires now : ℤ) (r : RunRow) : (r.beat expires now).key = r.key := rfl

def heartbeat (tenant runId owner : String) (fence : ℤ) (ttl : ℚ) (now : ℤ) :
    Except RunError (Bool × RunStore) := do
  let duration ← leaseTtl ttl
  checkTenant tenant
  match holder s tenant runId owner fence now with
  | none => return (false, s)
  | some row => do
    let extended ← later now duration
    let expires := max (row.leaseExpiresAt.getD extended) extended
    return (true, { s with
      runs := s.runs.modify (tenant, runId) (.beat expires now) (RunRow.beat_key expires now) })

def RunRow.finish (state : RunState) (now : ℤ) (r : RunRow) : RunRow :=
  { r with state, finishedAt := some now, updatedAt := now, leaseExpiresAt := none }

lemma RunRow.finish_key (state : RunState) (now : ℤ) (r : RunRow) : (r.finish state now).key = r.key := rfl

def finish (tenant runId owner : String) (fence : ℤ) (state : RunState) (now : ℤ) :
    Except RunError (Bool × RunStore) := do
  refuse state.live (.valueError "invalid_lab_run_state")
  checkTenant tenant
  match holder s tenant runId owner fence now with
  | none => return (false, s)
  | some _ => return (true, { s with
      runs := s.runs.modify (tenant, runId) (.finish state now) (RunRow.finish_key state now) })

structure EventArg where
  block : Option String
  kind : String
  payload : Option String

def prepare (e : EventArg) : Except RunError Event := do
  pin e.kind
  match e.block with
  | none => pure ()
  | some block => pin block
  let payload ← demand e.payload (.valueError "Out of range float values are not JSON compliant")
  return ⟨e.block, e.kind, payload⟩

def RunRow.record (l : Log) (now : ℤ) (r : RunRow) : RunRow :=
  { r with nextSeq := l.seq, eventCount := l.count, updatedAt := now }

lemma RunRow.record_key (l : Log) (now : ℤ) (r : RunRow) : (r.record l now).key = r.key := rfl

def appendEvents (tenant runId owner : String) (fence : ℤ) (events : List EventArg) (now : ℤ) :
    Except RunError (Bool × RunStore) := do
  let prepared ← events.mapM prepare
  checkTenant tenant
  match holder s tenant runId owner fence now with
  | none => return (false, s)
  | some row => do
    let l ← prepared.foldlM (logEvent (tenant, runId) now) (row.log s.events)
    return (true,
      { runs := s.runs.modify (tenant, runId) (.record l now) (RunRow.record_key l now)
        events := l.events })

def RunRow.requestCancel (actor : String) (now : ℤ) (r : RunRow) : RunRow :=
  { r with cancelRequested := some (now, actor), updatedAt := now }

lemma RunRow.requestCancel_key (actor : String) (now : ℤ) (r : RunRow) :
    (r.requestCancel actor now).key = r.key := rfl

def RunRow.cancel (actor : String) (now : ℤ) (r : RunRow) : RunRow :=
  { r.requestCancel actor now with
    state := .cancelled, finishedAt := some now, nextSeq := r.nextSeq + 1,
    eventCount := r.eventCount + 1 }

lemma RunRow.cancel_key (actor : String) (now : ℤ) (r : RunRow) : (r.cancel actor now).key = r.key := rfl

def Event.cancelled : Event := ⟨none, "cancelled", "\x7b\x7d"⟩

def requestCancel (tenant runId actor : String) (now : ℤ) : Except RunError (Bool × RunStore) := do
  pin runId
  refuse (actor.isEmpty ∨ 200 < actor.length) (.invalidGraph "invalid_lab_actor")
  checkTenant tenant
  let row ← demand (s.runs.find (tenant, runId)) (.notFound "lab_run_not_found")
  if ¬row.state.live ∨ row.cancelRequested.isSome then return (false, s)
  else if row.state = .queued then do
    let events ← insertEvent s.events row.key row.nextSeq .cancelled now
    return (true,
      { runs := s.runs.modify (tenant, runId) (.cancel actor now) (RunRow.cancel_key actor now), events })
  else
    return (true, { s with
      runs := s.runs.modify (tenant, runId) (.requestCancel actor now) (RunRow.requestCancel_key actor now) })

def retainedPerDoc : ℕ := 50

def exempt (now : ℤ) (r : RunRow) : Bool :=
  r.runId.startsWith "s1." && (r.state.live || now - r.createdAt < submissionTtl + minutes 5)

/-- The runs beyond the newest fifty of their document; `seen` are the documents of the runs before. -/
def surplus (now : ℤ) (seen : List String) : List RunRow → List RunRow
  | [] => []
  | r :: rest =>
    let others := surplus now (r.pins.docId :: seen) rest
    if retainedPerDoc < seen.count r.pins.docId + 1 ∧ ¬exempt now r then r :: others else others

def newestFirst (tenant : String) : List RunRow :=
  (sortOn (fun r => toLex (r.createdAt, r.runId)) (s.runs.rows.filter fun r => r.tenantId = tenant)).reverse

def RunRow.recount (events : Events) (r : RunRow) : RunRow :=
  { r with eventCount := (eventsOf events r.key).length }

lemma RunRow.recount_key (events : Events) (r : RunRow) : (r.recount events).key = r.key := rfl

/-- The transaction of one tenant. Deleting a run deletes its events. -/
def sweep (tenant : String) (now : ℤ) : RunStore :=
  let deleted := (surplus now [] (newestFirst s tenant)).map RunRow.key
  let events := s.events.deleteWhere fun e =>
    deleted.contains e.run || (e.run.1 = tenant && e.createdAt < now - hours (7 * 24))
  { runs := (s.runs.deleteWhere fun r => deleted.contains r.key).updateWhere
      (fun r => r.tenantId = tenant) (.recount events) (RunRow.recount_key events)
    events }

inductive Transaction
  | create (tenant : String) (a : CreateArgs) (called now : ℤ)
  | claim (tenant runId owner : String) (ttl : ℚ) (buildRevision color : String) (now : ℤ)
  | heartbeat (tenant runId owner : String) (fence : ℤ) (ttl : ℚ) (now : ℤ)
  | appendEvents (tenant runId owner : String) (fence : ℤ) (events : List EventArg) (now : ℤ)
  | finish (tenant runId owner : String) (fence : ℤ) (state : RunState) (now : ℤ)
  | requestCancel (tenant runId actor : String) (now : ℤ)
  | sweep (tenant : String) (now : ℤ)

inductive Reply
  | failed (e : RunError)
  | created (row : RunRow)
  | claimed (granted : Option Grant)
  | held (done : Bool)
  | cancelling (done : Bool)
  | swept

def commit {A : Type} (reply : A → Reply) : Except RunError (A × RunStore) → Reply × RunStore
  | .error e => (.failed e, s)
  | .ok (a, s') => (reply a, s')

def apply (digest : String → String → String → String) (registryDigest : String) :
    Transaction → Reply × RunStore
  | .create tenant a called now => commit s .created (create s digest registryDigest tenant a called now)
  | .claim tenant runId owner ttl buildRevision color now =>
    commit s .claimed (claim s tenant runId owner ttl buildRevision color now)
  | .heartbeat tenant runId owner fence ttl now =>
    commit s .held (heartbeat s tenant runId owner fence ttl now)
  | .appendEvents tenant runId owner fence events now =>
    commit s .held (appendEvents s tenant runId owner fence events now)
  | .finish tenant runId owner fence state now =>
    commit s .held (finish s tenant runId owner fence state now)
  | .requestCancel tenant runId actor now => commit s .cancelling (requestCancel s tenant runId actor now)
  | .sweep tenant now => (.swept, sweep s tenant now)

/-- The instant a transaction reads from the clock; a sweep is handed its own. -/
def Transaction.clock : Transaction → Option ℤ
  | .create _ _ _ now | .claim _ _ _ _ _ _ now | .heartbeat _ _ _ _ _ now
  | .appendEvents _ _ _ _ _ now | .finish _ _ _ _ _ now | .requestCancel _ _ _ now => some now
  | .sweep _ _ => none

end LeafWeb.Lab
