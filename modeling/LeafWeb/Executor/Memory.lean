import LeafWeb.Executor.ControlPlane
import LeafWeb.Lib.Dict
import Mathlib.Data.String.Basic

/-! `InMemoryStore` and the service over it. What a caller holds of a row is as it was when it was returned. -/

namespace LeafWeb.Executor

open Lib Session

def Slot.place (s : Slot) : String × String := (s.executorId, s.slotId)

def Slot.starting (executorId endpoint : String) (hostEpoch : ℤ) (slotId : String) : Slot :=
  ⟨executorId, slotId, endpoint, hostEpoch, 1, .starting, none, none, 1⟩

def Slot.report (ready : Bool) (codeDigest runtimeDigest : String) (s : Slot) : Slot :=
  { s with
    state := if ready then .ready else .starting, codeDigest := some codeDigest,
    runtimeDigest := some runtimeDigest, version := s.version + 1 }

lemma Slot.report_place (ready : Bool) (codeDigest runtimeDigest : String) (s : Slot) :
    (s.report ready codeDigest runtimeDigest).place = s.place := rfl

def Slot.claim (s : Slot) : Slot := { s with state := .claimed, version := s.version + 1 }

lemma Slot.claim_place (s : Slot) : s.claim.place = s.place := rfl

def Slot.free (s : Slot) : Slot := { s with state := .ready, version := s.version + 1 }

lemma Slot.free_place (s : Slot) : s.free.place = s.place := rfl

def Slot.drain (s : Slot) : Slot := { s with state := .draining }

lemma Slot.drain_place (s : Slot) : s.drain.place = s.place := rfl

structure Memory where
  slots : Table Slot.place
  sessions : Table sessionId
  claims : Table ClaimRow.claimId
  (hostEpochs lastHeartbeat : Dict String ℤ)
  candidateCursor : ℕ

namespace Memory

def empty : Memory := ⟨.empty, .empty, .empty, .empty, .empty, 0⟩

variable (m : Memory)

def registerHost (executorId endpoint : String) (slotIds : List String) (now : ℤ) : List Slot × Memory :=
  let epoch := (m.hostEpochs.get executorId).getD 0 + 1
  let result := slotIds.map (.starting executorId endpoint epoch)
  (result,
    { m with
      hostEpochs := m.hostEpochs.set executorId epoch
      lastHeartbeat := m.lastHeartbeat.set executorId now
      slots := result.foldl Table.put m.slots })

def setReadiness (executorId slotId : String) (ready : Bool) (codeDigest runtimeDigest : String) :
    Except StoreError (Slot × Memory) := do
  let slot ← demand (m.slots.find (executorId, slotId)) .unknown
  return (slot.report ready codeDigest runtimeDigest,
    { m with
      slots := m.slots.updateWhere (fun s => s.place = (executorId, slotId))
        (.report ready codeDigest runtimeDigest) (Slot.report_place ready codeDigest runtimeDigest) })

def heartbeat (executorId : String) (now : ℤ) : Except StoreError Memory := do
  refuse (m.hostEpochs.get executorId).isNone .unknown
  return { m with lastHeartbeat := m.lastHeartbeat.set executorId now }

def hostIsFresh (timeout : ℤ) (executorId : String) (now : ℤ) : Bool :=
  (m.lastHeartbeat.get executorId).any fun beat => 0 ≤ now - beat && now - beat ≤ timeout

def drain (executorId : String) : List Session × Memory :=
  let affected := fun s : Session => s.executorId = executorId && s.state = .active
  ((m.sessions.rows.filter affected).map Session.drain,
    { m with
      slots := m.slots.updateWhere (fun s => s.executorId = executorId) .drain Slot.drain_place
      sessions := m.sessions.updateWhere affected .drain drain_id })

def candidateLocked (timeout now : ℤ) : Except StoreError (Slot × Memory) := do
  let ready := (sortOn (fun s => toLex s.place) m.slots.rows).filter fun s =>
    s.state = .ready && m.hostIsFresh timeout s.executorId now
  let slot ← demand ready[m.candidateCursor % ready.length]?
    (.noCapacity "no ready executor slot with a fresh heartbeat")
  return (slot, { m with candidateCursor := m.candidateCursor + 1 })

def claimSlot (timeout dbNow : ℤ) (executorId slotId : String) (expectedVersion : ℤ) (claimId : ℕ)
    (expiresAt : ℤ) : Except StoreError ((Slot × ClaimRow) × Memory) := do
  let slot ← demand (m.slots.find (executorId, slotId)) .unknown
  refuse (slot.state ≠ .ready ∨ slot.version ≠ expectedVersion ∨ ¬m.hostIsFresh timeout executorId dbNow)
    (.stale "capacity claim lost its compare-and-set race")
  let claim : ClaimRow := ⟨claimId, slot.executorId, slot.slotId, slot.version + 1, expiresAt, .active⟩
  return ((slot.claim, claim),
    { m with
      slots := m.slots.updateWhere (fun s => s.place = slot.place) .claim Slot.claim_place
      claims := m.claims.put claim })

def claimReadySlot (timeout dbNow : ℤ) (claimId : ℕ) (expiresAt : ℤ) :
    Except StoreError (Slot × ClaimRow) × Memory :=
  match m.candidateLocked timeout dbNow with
  | .error e => (.error e, m)
  | .ok (s, m') =>
    match m'.claimSlot timeout dbNow s.executorId s.slotId s.version claimId expiresAt with
    -- The cursor has moved on.
    | .error e => (.error e, m')
    | .ok (found, m'') => (.ok found, m'')

def freeSlot (place : String × String) : Except StoreError Unit × Memory :=
  match m.slots.find place with
  | none => (.error .unknown, m)
  | some _ =>
    (.ok (), { m with
      slots := m.slots.updateWhere (fun s => s.place = place && s.state = .claimed) .free Slot.free_place })

def releaseClaim (claimId : ℕ) : Memory :=
  { m with claims := m.claims.updateWhere (fun c => c.claimId = claimId) .release ClaimRow.release_id }

def abortClaim (claimId : ℕ) : Except StoreError Unit × Memory :=
  match (m.claims.find claimId).filter fun c => c.state = .active with
  | none => (.ok (), m)
  | some c => (m.releaseClaim claimId).freeSlot c.place

def createSession (s : Session) : Except StoreError Memory := do
  refuse ((m.sessions.find s.sessionId).any fun old => old.state.live)
    (.stale "session already has a live binding")
  return { m with sessions := m.sessions.put s }

def activate (sessionId : String) (l : Lease) : Except StoreError Memory := do
  let s ← demand (m.sessions.find sessionId) .unknown
  refuse (s.state ≠ .binding ∨ l.bindingEpoch ≠ s.bindingEpoch) (.stale "stale binding activation")
  return { m with
    sessions := m.sessions.updateWhere (fun r => r.sessionId = sessionId) (.activated l) (activated_id l) }

def renew (sessionId : String) (expectedEpoch : ℤ) (l : Lease) : Except StoreError Memory := do
  let s ← demand (m.sessions.find sessionId) .unknown
  refuse (s.state ≠ .active ∨ s.bindingEpoch ≠ expectedEpoch ∨ l.sequence ≤ s.leaseSequence)
    (.stale "stale lease renewal")
  return { m with
    sessions := m.sessions.updateWhere (fun r => r.sessionId = sessionId) (.leased l) (leased_id l) }

def endSession (sessionId : String) : Memory :=
  { m with
    sessions := m.sessions.updateWhere (fun r => r.sessionId = sessionId) .invalidate invalidate_id }

def release (sessionId : String) : Except StoreError (Option Session) × Memory :=
  match m.sessions.find sessionId with
  | none => (.ok none, m)
  | some s =>
    let (freed, m') := ((m.endSession sessionId).releaseClaim s.claimId).freeSlot s.place
    (freed.map fun _ => some s.invalidate, m')

def invalidate (sessionId : String) (expectedEpoch : Option ℤ) : Except StoreError (Option Session) × Memory :=
  match m.sessions.find sessionId with
  | none => (.ok none, m)
  | some s =>
    if expectedEpoch.any fun e => e ≠ s.bindingEpoch then (.error (.stale "stale binding fence"), m)
    else m.release sessionId

def releaseAll (m : Memory) : List String → Except StoreError (List Session) × Memory
  | [] => (.ok [], m)
  | sessionId :: rest =>
    let (released, m') := m.release sessionId
    match released with
    | .error e => (.error e, m')
    | .ok found =>
      let (others, m'') := releaseAll m' rest
      (others.map (found.toList ++ ·), m'')

def reclaimedSessions (now : ℤ) (idleBefore : Option ℤ) : Except StoreError (List Session) × Memory :=
  m.releaseAll ((m.sessions.rows.filter (reclaimable now idleBefore)).map sessionId)

def answered {α : Type} (answer : α → Answer) : Except StoreError α × Memory → Answer × Memory
  | (.ok a, m') => (answer a, m')
  | (.error e, m') => (.failed e, m')

def checked {α : Type} (answer : α → Answer) : Except StoreError (α × Memory) → Answer × Memory
  | .ok (a, m') => (answer a, m')
  | .error e => (.failed e, m)

/-- The store has no `complete_reclaim`: its callers leave it out. -/
def apply (timeout : ℤ) : Op → Answer × Memory
  | .registerHost hostId endpoint slotIds dbNow =>
    let (found, m') := m.registerHost hostId endpoint slotIds dbNow
    (.slots found, m')
  | .setReadiness hostId slotId ready code runtime =>
    m.checked (fun s => .slot (some s)) (m.setReadiness hostId slotId ready code runtime)
  | .heartbeat hostId dbNow => m.checked (fun _ => .done) ((m.heartbeat hostId dbNow).map ((), ·))
  | .claimSlot dbNow hostId slotId expectedVersion claimId expiresAt =>
    m.checked (fun f => .claimed (some f))
      (m.claimSlot timeout dbNow hostId slotId expectedVersion claimId expiresAt)
  | .claimReadySlot dbNow _ claimId expiresAt =>
    answered (fun f => .claimed (some f)) (m.claimReadySlot timeout dbNow claimId expiresAt)
  | .abortClaim claimId => answered (fun _ => .done) (m.abortClaim claimId)
  | .createSession s _ => m.checked (fun _ => .done) ((m.createSession s).map ((), ·))
  | .activate sessionId l => m.checked (fun _ => .done) ((m.activate sessionId l).map ((), ·))
  | .renew sessionId expectedEpoch l =>
    m.checked (fun _ => .done) ((m.renew sessionId expectedEpoch l).map ((), ·))
  | .release sessionId => answered .session (m.release sessionId)
  | .invalidate sessionId expectedEpoch => answered .session (m.invalidate sessionId expectedEpoch)
  | .reclaim now idleBefore _ _ _ => answered .sessions (m.reclaimedSessions now idleBefore)
  | .completeReclaim _ _ => (.done, m)
  | .drain hostId =>
    let (found, m') := m.drain hostId
    (.sessions found, m')
  | .getSession sessionId => (.session (m.sessions.find sessionId), m)
  | .getSlot hostId slotId => (.slot (m.slots.find (hostId, slotId)), m)
  | .getClaim claimId => (.claim (m.claims.find claimId), m)

variable (cfg : Settings)

def start : Plane Memory := ⟨.empty, fun _ => .idle, 0⟩

def transact (p : Plane Memory) (e : Event) : Answer × Memory :=
  match e.op cfg p with
  | none => (.done, p.db)
  | some op => p.db.apply cfg.heartbeatTimeout op

def step (p : Plane Memory) (e : Event) : Answer × Plane Memory :=
  let (answer, m) := transact cfg p e
  (answer, ⟨m, schedule p answer e, p.minted + 1⟩)

end Memory

end LeafWeb.Executor
