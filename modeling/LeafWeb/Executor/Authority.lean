import LeafWeb.Lib.Gather
import LeafWeb.Lib.SortOn
import LeafWeb.Lib.Statements
import Mathlib.Algebra.Order.Ring.Int
import Mathlib.Data.Prod.Lex

/-! The tables of the control plane and the transactions `PostgresStore` runs on them, each as a whole or
not at all. Instants are microseconds; an identifier that `uuid4` draws is a number. -/

namespace LeafWeb.Executor

open Lib

inductive HostState
  | active
  | draining
  deriving DecidableEq

inductive SlotState
  | starting
  | ready
  | claimed
  | releasing
  | draining
  | revoked
  deriving DecidableEq

inductive ClaimState
  | active
  | released
  deriving DecidableEq

inductive SessionState
  | binding
  | active
  | draining
  | invalid
  deriving DecidableEq

inductive LeaseState
  | active
  | superseded
  | revoked
  deriving DecidableEq

def SessionState.live : SessionState → Bool
  | .binding | .active | .draining => true
  | .invalid => false

structure HostRow where
  hostId : String
  state : HostState
  hostEpoch : ℤ
  endpoint : String
  lastHeartbeatAt : Option ℤ

structure SlotRow where
  (hostId slotId : String)
  state : SlotState
  slotEpoch : ℤ
  (codeDigest runtimeDigest : Option String)
  currentClaimId : Option ℕ
  version : ℤ

def SlotRow.place (r : SlotRow) : String × String := (r.hostId, r.slotId)

structure ClaimRow where
  claimId : ℕ
  (hostId slotId : String)
  (claimEpoch expiresAt : ℤ)
  state : ClaimState
  deriving DecidableEq

def ClaimRow.place (c : ClaimRow) : String × String := (c.hostId, c.slotId)

structure Session where
  assignmentId : ℕ
  (tenantId sessionId executorId slotId : String)
  claimId : ℕ
  bindingEpoch : ℤ
  (catalogDigest codeDigest artifactDigest runtimeDigest capability : String)
  state : SessionState
  leaseId : Option ℕ
  leaseSequence : ℤ
  (expiresAt lastActivityAt : Option ℤ)
  deriving DecidableEq

def Session.place (s : Session) : String × String := (s.executorId, s.slotId)

structure Lease where
  leaseId : ℕ
  (executorId slotId : String)
  claimId : ℕ
  (hostEpoch slotEpoch bindingEpoch sequence notBefore expiresAt : ℤ)

structure LeaseRow where
  leaseId : ℕ
  (hostId slotId : String)
  (hostEpoch slotEpoch : ℤ)
  claimId : ℕ
  sessionId : String
  (bindingEpoch leaseSequence notBefore expiresAt : ℤ)
  state : LeaseState
  deriving DecidableEq

structure OutboxRow where
  eventId : ℕ
  entityId : String
  createdAt : ℤ
  publishedAt : Option ℤ
  deriving DecidableEq

structure Slot where
  (executorId slotId endpoint : String)
  (hostEpoch slotEpoch : ℤ)
  state : SlotState
  (codeDigest runtimeDigest : Option String)
  version : ℤ
  deriving DecidableEq

structure Authority where
  hosts : Table HostRow.hostId
  slots : Table SlotRow.place
  claims : Table ClaimRow.claimId
  sessions : Table Session.sessionId
  leases : Table LeaseRow.leaseId
  outbox : Table OutboxRow.eventId

def Authority.empty : Authority := ⟨.empty, .empty, .empty, .empty, .empty, .empty⟩

inductive StoreError
  | unknown
  | noCapacity (message : String)
  | stale (message : String)
  | violation (constraint : String)
  deriving DecidableEq

variable (t : Authority)

def SlotRow.slot (r : SlotRow) (h : HostRow) : Slot :=
  ⟨r.hostId, r.slotId, h.endpoint, h.hostEpoch, r.slotEpoch, r.state, r.codeDigest, r.runtimeDigest, r.version⟩

def ClaimRow.release (c : ClaimRow) : ClaimRow := { c with state := .released }

lemma ClaimRow.release_id (c : ClaimRow) : c.release.claimId = c.claimId := rfl

def Session.invalidate (s : Session) : Session := { s with state := .invalid }

lemma Session.invalidate_id (s : Session) : s.invalidate.sessionId = s.sessionId := rfl

def SlotRow.free (r : SlotRow) : SlotRow :=
  { r with state := .ready, currentClaimId := none, version := r.version + 1 }

lemma SlotRow.free_place (r : SlotRow) : r.free.place = r.place := rfl

def HostRow.reregister (endpoint : String) (now : ℤ) (h : HostRow) : HostRow :=
  { h with
    state := .active, hostEpoch := h.hostEpoch + 1, endpoint, lastHeartbeatAt := some now }

lemma HostRow.reregister_id (endpoint : String) (now : ℤ) (h : HostRow) :
    (h.reregister endpoint now).hostId = h.hostId := rfl

def SlotRow.revoke (r : SlotRow) : SlotRow :=
  { r with
    state := .revoked, slotEpoch := r.slotEpoch + 1, codeDigest := none, runtimeDigest := none,
    currentClaimId := none, version := r.version + 1 }

lemma SlotRow.revoke_place (r : SlotRow) : r.revoke.place = r.place := rfl

def SlotRow.starting (hostId slotId : String) : SlotRow := ⟨hostId, slotId, .starting, 1, none, none, none, 1⟩

def SlotRow.start (r : SlotRow) : SlotRow := { r with state := .starting }

lemma SlotRow.start_place (r : SlotRow) : r.start.place = r.place := rfl

def startSlot (hostId : String) (slots : Table SlotRow.place) (slotId : String) : Table SlotRow.place :=
  slots.upsert (.starting hostId slotId) .start SlotRow.start_place

def registerHost (hostId endpoint : String) (slotIds : List String) (now : ℤ) : List Slot × Authority :=
  let hosts := t.hosts.upsert ⟨hostId, .active, 1, endpoint, some now⟩ (.reregister endpoint now)
    (HostRow.reregister_id endpoint now)
  let slots := slotIds.foldl (startSlot hostId)
    (t.slots.updateWhere (fun r => r.hostId = hostId) .revoke SlotRow.revoke_place)
  let sessions := t.sessions.updateWhere (fun s => s.executorId = hostId && s.state.live) .invalidate
    Session.invalidate_id
  let claims := t.claims.updateWhere (fun c => c.hostId = hostId && c.state = .active) .release ClaimRow.release_id
  let found := slotIds.filterMap fun slotId =>
    (slots.find (hostId, slotId)).bind fun r => (hosts.find hostId).map r.slot
  (found, { t with hosts, slots, sessions, claims })

def SlotRow.report (ready : Bool) (codeDigest runtimeDigest : String) (r : SlotRow) : SlotRow :=
  { r with
    state := if ready then .ready else .starting, codeDigest := some codeDigest,
    runtimeDigest := some runtimeDigest, version := r.version + 1 }

lemma SlotRow.report_place (ready : Bool) (codeDigest runtimeDigest : String) (r : SlotRow) :
    (r.report ready codeDigest runtimeDigest).place = r.place := rfl

def getSlot (hostId slotId : String) : Option Slot :=
  (t.slots.find (hostId, slotId)).bind fun r => (t.hosts.find hostId).map r.slot

def setReadiness (hostId slotId : String) (ready : Bool) (codeDigest runtimeDigest : String) :
    Except StoreError (Slot × Authority) := do
  refuse (¬(t.hosts.find hostId).any fun h => h.state = .active) .unknown
  let t' := { t with
    slots := t.slots.modify (hostId, slotId) (.report ready codeDigest runtimeDigest)
      (SlotRow.report_place ready codeDigest runtimeDigest) }
  let slot ← demand (getSlot t' hostId slotId) .unknown
  return (slot, t')

def HostRow.beat (now : ℤ) (h : HostRow) : HostRow := { h with lastHeartbeatAt := some now }

lemma HostRow.beat_id (now : ℤ) (h : HostRow) : (h.beat now).hostId = h.hostId := rfl

def heartbeat (hostId : String) (now : ℤ) : Except StoreError Authority := do
  refuse (t.hosts.find hostId).isNone .unknown
  return { t with hosts := t.hosts.modify hostId (.beat now) (HostRow.beat_id now) }

def HostRow.drain (h : HostRow) : HostRow := { h with state := .draining }

lemma HostRow.drain_id (h : HostRow) : h.drain.hostId = h.hostId := rfl

def SlotRow.drain (r : SlotRow) : SlotRow := { r with state := .draining, version := r.version + 1 }

lemma SlotRow.drain_place (r : SlotRow) : r.drain.place = r.place := rfl

def Session.drain (s : Session) : Session := { s with state := .draining }

lemma Session.drain_id (s : Session) : s.drain.sessionId = s.sessionId := rfl

def drain (hostId : String) : Except StoreError (List Session × Authority) := do
  refuse (t.hosts.find hostId).isNone .unknown
  let affected := fun s : Session => s.executorId = hostId && s.state = .active
  return ((t.sessions.rows.filter affected).map Session.drain,
    { t with
      hosts := t.hosts.modify hostId .drain HostRow.drain_id
      slots := t.slots.updateWhere (fun r => r.hostId = hostId) .drain SlotRow.drain_place
      sessions := t.sessions.updateWhere affected .drain Session.drain_id })

def fresh (timeout now : ℤ) (hostId : String) : Bool :=
  (t.hosts.find hostId).any fun h =>
    h.state = .active && h.lastHeartbeatAt.any fun beat => now - timeout ≤ beat

def SlotRow.claim (claimId : ℕ) (r : SlotRow) : SlotRow :=
  { r with state := .claimed, currentClaimId := some claimId, version := r.version + 1 }

lemma SlotRow.claim_place (claimId : ℕ) (r : SlotRow) : (r.claim claimId).place = r.place := rfl

def SlotRow.claimRow (r : SlotRow) (claimId : ℕ) (expiresAt : ℤ) : ClaimRow :=
  ⟨claimId, r.hostId, r.slotId, r.version + 1, expiresAt, .active⟩

def takeSlot (r : SlotRow) (claimId : ℕ) (expiresAt : ℤ) : Except StoreError ((Slot × ClaimRow) × Authority) := do
  let claim := r.claimRow claimId expiresAt
  refuse (t.claims.rows.any fun c => c.state = .active && c.place = r.place)
    (.violation "one_active_claim_per_slot")
  let claims ← demand (t.claims.insert claim) (.violation "capacity_claims_pkey")
  let host ← demand (t.hosts.find r.hostId) .unknown
  return (((r.claim claimId).slot host, claim),
    { t with claims, slots := t.slots.modify r.place (.claim claimId) (SlotRow.claim_place claimId) })

def claimSlot (timeout dbNow : ℤ) (hostId slotId : String) (expectedVersion : ℤ) (claimId : ℕ)
    (expiresAt : ℤ) : Except StoreError ((Slot × ClaimRow) × Authority) := do
  let r ← demand
    ((t.slots.find (hostId, slotId)).filter fun r =>
      r.state = .ready && r.version = expectedVersion && fresh t timeout dbNow hostId)
    (.stale "capacity claim lost its compare-and-set race")
  takeSlot t r claimId expiresAt

/-- One attempt of `claim_ready_slot`. The slot picked is any ready one on a fresh host that no other
transaction has locked, or none. -/
def claimReadySlot (timeout dbNow : ℤ) (picked : Option (String × String)) (claimId : ℕ)
    (expiresAt : ℤ) : Except StoreError (Option (Slot × ClaimRow) × Authority) :=
  match (picked.bind t.slots.find).filter fun r =>
      r.state = .ready && fresh t timeout dbNow r.hostId with
  | none => .ok (none, t)
  | some r => do
    let (found, t') ← takeSlot t r claimId expiresAt
    return (some found, t')

def abortClaim (claimId : ℕ) : Authority :=
  match (t.claims.find claimId).filter fun c => c.state = .active with
  | none => t
  | some c =>
    { t with
      claims := t.claims.modify claimId .release ClaimRow.release_id
      slots := t.slots.updateWhere
        (fun r => r.place = c.place && r.currentClaimId = some claimId && r.state = .claimed)
        .free SlotRow.free_place }

def validClaim (s : Session) (dbNow : ℤ) : Bool :=
  (t.claims.find s.claimId).any fun c =>
    c.place = s.place && c.state = .active && dbNow < c.expiresAt &&
      (t.slots.find c.place).any fun r => r.state = .claimed && r.currentClaimId = some c.claimId

def Session.bound (s : Session) : Session :=
  { s with
    state := .binding, leaseId := none, leaseSequence := 0, expiresAt := none, lastActivityAt := none }

/-- The row of an earlier binding taken over; the statement does not reset its last activity. -/
def Session.takeOver (s old : Session) : Session :=
  { s.bound with sessionId := old.sessionId, lastActivityAt := old.lastActivityAt }

lemma Session.takeOver_id (s old : Session) : (s.takeOver old).sessionId = old.sessionId := rfl

def createSession (s : Session) (dbNow : ℤ) : Except StoreError Authority := do
  refuse (¬validClaim t s dbNow ∨ (t.sessions.find s.sessionId).any fun old => old.state.live)
    (.stale "session already has a live binding or its capacity claim is stale")
  return { t with sessions := t.sessions.upsert s.bound s.takeOver s.takeOver_id }

def Lease.row (l : Lease) (sessionId : String) : LeaseRow :=
  ⟨l.leaseId, l.executorId, l.slotId, l.hostEpoch, l.slotEpoch, l.claimId, sessionId, l.bindingEpoch,
    l.sequence, l.notBefore, l.expiresAt, .active⟩

def Session.leased (l : Lease) (s : Session) : Session :=
  { s with
    leaseId := some l.leaseId, leaseSequence := l.sequence, expiresAt := some l.expiresAt,
    lastActivityAt := some l.notBefore }

lemma Session.leased_id (l : Lease) (s : Session) : (s.leased l).sessionId = s.sessionId := rfl

def Session.activated (l : Lease) (s : Session) : Session := { s.leased l with state := .active }

lemma Session.activated_id (l : Lease) (s : Session) : (s.activated l).sessionId = s.sessionId := rfl

def activatable (l : Lease) (s : Session) : Bool :=
  s.state = .binding && s.bindingEpoch = l.bindingEpoch &&
    (t.claims.find s.claimId).any fun c =>
      c.state = .active && l.notBefore ≤ c.expiresAt &&
        ((t.slots.find c.place).any fun r => r.state = .claimed) &&
          (t.hosts.find c.hostId).any fun h => h.state = .active

def activate (sessionId : String) (l : Lease) : Except StoreError Authority := do
  refuse (¬(t.sessions.find sessionId).any (activatable t l)) (.stale "stale binding activation")
  let leases ← demand (t.leases.insert (l.row sessionId)) (.violation "executor_leases_pkey")
  return { t with
    leases, sessions := t.sessions.modify sessionId (.activated l) (Session.activated_id l) }

def renewable (expectedEpoch : ℤ) (l : Lease) (s : Session) : Bool :=
  s.state = .active && s.bindingEpoch = expectedEpoch && s.leaseSequence < l.sequence &&
    (t.claims.find s.claimId).any fun c => c.state = .active && l.notBefore ≤ c.expiresAt

def LeaseRow.close (state : LeaseState) (l : LeaseRow) : LeaseRow := { l with state }

lemma LeaseRow.close_id (state : LeaseState) (l : LeaseRow) : (l.close state).leaseId = l.leaseId := rfl

def endLeases (sessionId : String) (state : LeaseState) : Table LeaseRow.leaseId :=
  t.leases.updateWhere (fun l => l.sessionId = sessionId && l.state = .active) (.close state)
    (LeaseRow.close_id state)

def renew (sessionId : String) (expectedEpoch : ℤ) (l : Lease) : Except StoreError Authority := do
  refuse (¬(t.sessions.find sessionId).any (renewable t expectedEpoch l)) (.stale "stale lease renewal")
  let leases ← demand ((endLeases t sessionId .superseded).insert (l.row sessionId))
    (.violation "executor_leases_pkey")
  return { t with
    leases, sessions := t.sessions.modify sessionId (.leased l) (Session.leased_id l) }

def SlotRow.vacate (r : SlotRow) : SlotRow := { r with state := .releasing, version := r.version + 1 }

lemma SlotRow.vacate_place (r : SlotRow) : r.vacate.place = r.place := rfl

def finish (s : Session) : Authority :=
  { t with
    sessions := t.sessions.updateWhere (fun r => r.sessionId = s.sessionId) .invalidate Session.invalidate_id
    leases := endLeases t s.sessionId .revoked
    claims :=
      t.claims.updateWhere (fun c => c.claimId = s.claimId && c.state = .active) .release ClaimRow.release_id
    slots := t.slots.updateWhere
      (fun r => r.place = s.place && r.currentClaimId = some s.claimId && r.state = .claimed)
      .vacate SlotRow.vacate_place }

def finishSession (sessionId : String) (expectedEpoch : Option ℤ) :
    Except StoreError (Option Session × Authority) :=
  match t.sessions.find sessionId with
  | none => .ok (none, t)
  | some s => do
    refuse (expectedEpoch.any fun e => s.bindingEpoch ≠ e) (.stale "stale binding fence")
    return (some s.invalidate, finish t s)

def reclaimable (now : ℤ) (idleBefore : Option ℤ) (s : Session) : Bool :=
  s.state.live && (s.expiresAt.any (fun e => e ≤ now) ||
    idleBefore.any fun b => s.lastActivityAt.any fun a => a ≤ b)

def fence (dbNow : ℤ) (a : Authority × ℕ) (sessionId : String) : Except StoreError (Authority × ℕ) := do
  let (found, t') ← finishSession a.1 sessionId none
  match found with
  | none => return (t', a.2)
  | some _ => do
    let outbox ← demand (t'.outbox.insert ⟨a.2, sessionId, dbNow, none⟩) (.violation "control_outbox_pkey")
    return ({ t' with outbox }, a.2 + 1)

def pendingReleases : List OutboxRow :=
  sortOn (fun o => toLex (o.createdAt, o.eventId)) (t.outbox.rows.filter fun o => o.publishedAt.isNone)

/-- The rows of sessions another transaction has locked are skipped. The events are numbered from the
one given. -/
def reclaimInstantSessions (now : ℤ) (idleBefore : Option ℤ) (locked : String → Bool) (dbNow : ℤ)
    (event : ℕ) : Except StoreError (List Session × Authority) := do
  let eligible := t.sessions.rows.filter fun s => reclaimable now idleBefore s && !locked s.sessionId
  let (t', _) ← (eligible.map Session.sessionId).foldlM (fence dbNow) (t, event)
  return ((pendingReleases t').filterMap fun o => t'.sessions.find o.entityId, t')

def OutboxRow.publish (now : ℤ) (o : OutboxRow) : OutboxRow := { o with publishedAt := some now }

lemma OutboxRow.publish_id (now : ℤ) (o : OutboxRow) : (o.publish now).eventId = o.eventId := rfl

def completeReclaim (sessionId : String) (dbNow : ℤ) : Authority :=
  match t.sessions.find sessionId with
  | none => t
  | some s =>
    { t with
      slots := t.slots.updateWhere
        (fun r => r.place = s.place && r.currentClaimId = some s.claimId && r.state = .releasing)
        .free SlotRow.free_place
      outbox := t.outbox.updateWhere (fun o => o.entityId = sessionId && o.publishedAt.isNone)
        (.publish dbNow) (OutboxRow.publish_id dbNow) }

inductive Op
  | registerHost (hostId endpoint : String) (slotIds : List String) (dbNow : ℤ)
  | setReadiness (hostId slotId : String) (ready : Bool) (codeDigest runtimeDigest : String)
  | heartbeat (hostId : String) (dbNow : ℤ)
  | claimSlot (dbNow : ℤ) (hostId slotId : String) (expectedVersion : ℤ) (claimId : ℕ)
      (expiresAt : ℤ)
  | claimReadySlot (dbNow : ℤ) (picked : Option (String × String)) (claimId : ℕ) (expiresAt : ℤ)
  | abortClaim (claimId : ℕ)
  | createSession (s : Session) (dbNow : ℤ)
  | activate (sessionId : String) (l : Lease)
  | renew (sessionId : String) (expectedEpoch : ℤ) (l : Lease)
  | release (sessionId : String)
  | invalidate (sessionId : String) (expectedEpoch : Option ℤ)
  | reclaim (now : ℤ) (idleBefore : Option ℤ) (locked : String → Bool) (dbNow : ℤ) (event : ℕ)
  | completeReclaim (sessionId : String) (dbNow : ℤ)
  | drain (hostId : String)
  | getSession (sessionId : String)
  | getSlot (hostId slotId : String)
  | getClaim (claimId : ℕ)

inductive Answer
  | failed (e : StoreError)
  | done
  | slots (found : List Slot)
  | slot (found : Option Slot)
  | claimed (found : Option (Slot × ClaimRow))
  | session (found : Option Session)
  | sessions (found : List Session)
  | claim (found : Option ClaimRow)
  deriving DecidableEq

def commit {α : Type} (answer : α → Answer) : Except StoreError (α × Authority) → Answer × Authority
  | .error e => (.failed e, t)
  | .ok (a, t') => (answer a, t')

def apply (timeout : ℤ) : Op → Answer × Authority
  | .registerHost hostId endpoint slotIds dbNow =>
    let (found, t') := registerHost t hostId endpoint slotIds dbNow
    (.slots found, t')
  | .setReadiness hostId slotId ready code runtime =>
    commit t (fun s => .slot (some s)) (setReadiness t hostId slotId ready code runtime)
  | .heartbeat hostId dbNow => commit t (fun _ => .done) ((heartbeat t hostId dbNow).map ((), ·))
  | .claimSlot dbNow hostId slotId expectedVersion claimId expiresAt =>
    commit t (fun f => .claimed (some f))
      (claimSlot t timeout dbNow hostId slotId expectedVersion claimId expiresAt)
  | .claimReadySlot dbNow picked claimId expiresAt =>
    commit t .claimed (claimReadySlot t timeout dbNow picked claimId expiresAt)
  | .abortClaim claimId => (.done, abortClaim t claimId)
  | .createSession s dbNow => commit t (fun _ => .done) ((createSession t s dbNow).map ((), ·))
  | .activate sessionId l => commit t (fun _ => .done) ((activate t sessionId l).map ((), ·))
  | .renew sessionId expectedEpoch l =>
    commit t (fun _ => .done) ((renew t sessionId expectedEpoch l).map ((), ·))
  | .release sessionId => commit t .session (finishSession t sessionId none)
  | .invalidate sessionId expectedEpoch => commit t .session (finishSession t sessionId expectedEpoch)
  | .reclaim now idleBefore locked dbNow event =>
    commit t .sessions (reclaimInstantSessions t now idleBefore locked dbNow event)
  | .completeReclaim sessionId dbNow => (.done, completeReclaim t sessionId dbNow)
  | .drain hostId => commit t .sessions (drain t hostId)
  | .getSession sessionId => (.session (t.sessions.find sessionId), t)
  | .getSlot hostId slotId => (.slot (getSlot t hostId slotId), t)
  | .getClaim claimId => (.claim (t.claims.find claimId), t)

end LeafWeb.Executor
