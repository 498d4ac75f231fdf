import LeafWeb.Lib.ParentChain
import LeafWeb.Lib.Table
import LeafWeb.Lib.Transition
import LeafWeb.Store.Keys

/-! The PostgreSQL drawing authority: one manifest row and the version rows of one drawing. A transaction
that raises is rolled back. -/

namespace LeafWeb.Store.Postgres

open Lib ParentChain

structure CheckoutColumns where
  holder : String
  (acquiredAt expiresAt : Time)

structure ManifestRow where
  head : Option ℤ
  latest : ℤ
  checkout : Option CheckoutColumns
  checkoutFence : ℤ

inductive VersionState
  | reserved
  | ready
  | orphaned
  deriving DecidableEq

structure VersionRow where
  version : ℤ
  parentVersion : Option ℤ
  (workitemId note : Option String)
  state : VersionState

structure Db where
  manifest : Option ManifestRow
  versions : Table VersionRow.version

structure Authority extends DrawingId where
  -- The drawing's identity, and the note `_decode_plan_note` leaves visible.
  visibleNote : Option String → Option String

def Db.readyRows (db : Db) : List VersionRow := db.versions.rows.filter (fun r => r.state = .ready)

def Db.readyRow (db : Db) (v : ℤ) : Option VersionRow := (db.versions.find v).filter (fun r => r.state = .ready)

def Db.head (db : Db) : Option ℤ := db.manifest.bind (·.head)

def Db.setHead (db : Db) (row : ManifestRow) (v : ℤ) : Db :=
  { db with manifest := some { row with head := some v } }

def publishRow (note : Option String) (r : VersionRow) : VersionRow :=
  if r.state = .reserved then { r with state := .ready, note := note } else r

def orphanRow (r : VersionRow) : VersionRow := if r.state = .reserved then { r with state := .orphaned } else r

lemma publishRow_version (note : Option String) (r : VersionRow) : (publishRow note r).version = r.version := by
  unfold publishRow
  split_ifs <;> rfl

lemma orphanRow_version (r : VersionRow) : (orphanRow r).version = r.version := by
  unfold orphanRow
  split_ifs <;> rfl

def Db.publish (db : Db) (v : ℤ) (note : Option String) : Db :=
  { db with versions := db.versions.modify v (publishRow note) (publishRow_version note) }

def Db.orphan (db : Db) (v : ℤ) : Db :=
  { db with versions := db.versions.modify v orphanRow orphanRow_version }

structure PutArgs where
  parentVersion : Option ℤ
  holder : Option String
  fence : Option ℤ
  bundle : Bool
  (workitemId note : Option String)

structure Reservation where
  (version expected : ℤ)
  holder : String
  fence : ℤ
  bundle : Bool
  (workitemId note : Option String)

variable (auth : Authority)

def selectManifest (db : Db) : Except StoreError ManifestRow :=
  match db.manifest with
  | some row => .ok row
  | none => .error (.keyError (manifestKey auth.toDrawingId))

def currentHead (row : ManifestRow) : Except StoreError ℤ :=
  match row.head with
  | some head => .ok head
  | none => .error (.keyError (manifestKey auth.toDrawingId))

def requireActive (row : ManifestRow) (now : Time) : Except StoreError CheckoutColumns :=
  match row.checkout with
  | none => .error (.valueError "an active checkout is required to publish a version")
  | some co =>
    if co.expiresAt ≤ now then
      .error (.valueError "an active checkout is required to publish a version")
    else .ok co

def authorizeCheckoutRow (row : ManifestRow) (holder : Option String) (fence : Option ℤ)
    (now : Time) (action : String) : Except StoreError Unit :=
  if holder = none ∧ fence = none then .ok ()
  else
    match row.checkout with
    | none => .ok ()
    | some co =>
      if co.expiresAt ≤ now then .ok ()
      else refuseUnlessOwner co.holder (some row.checkoutFence) holder fence action

def priorApply (a : PutArgs) (db : Db) : Except StoreError (Option ℤ) :=
  if a.bundle then
    match db.readyRows.find? (fun r => r.workitemId.isSome ∧ r.workitemId = a.workitemId) with
    | none => .ok none
    | some prior =>
      if prior.note ≠ a.note then .error (.valueError "apply id was reused with different content")
      else .ok (some prior.version)
  else .ok none

def insertVersion (db : Db) (r : VersionRow) : Except StoreError (Table VersionRow.version) :=
  match db.versions.insert r with
  | some t => .ok t
  | none => .error (.runtimeError "duplicate key value violates unique constraint")

def reserveNext (a : PutArgs) (row : ManifestRow) (head : ℤ) (co : CheckoutColumns) (db : Db) :
    Except StoreError (Reservation × Db) := do
  let version := row.latest + 1
  let _ ← drawingVersionKey version
  let versions ← insertVersion db ⟨version, some head, a.workitemId, a.note, .reserved⟩
  .ok (⟨version, head, co.holder, row.checkoutFence, a.bundle, a.workitemId, a.note⟩,
    ⟨some { row with latest := version }, versions⟩)

def reserve (a : PutArgs) (now later : Time) (db : Db) : Except StoreError (ℤ ⊕ (Reservation × Db)) := do
  let row ← selectManifest auth db
  let head ← currentHead auth row
  let co ← requireActive row now
  authorizeCheckoutRow row a.holder a.fence later "publish a version"
  match ← priorApply a db with
  | some v => .ok (.inl v)
  | none =>
    if a.parentVersion ≠ some head then
      .error (.valueError ("stale drawing head: expected " ++ a.parentVersion.elim "None" toString ++
        s!", current {head}"))
    else .inr <$> reserveNext a row head co db

def fencedHead (row : ManifestRow) (r : Reservation) (clock : Time) : Bool :=
  row.head = some r.expected &&
    match row.checkout with
    | none => false
    | some co => co.holder = r.holder && row.checkoutFence = r.fence && decide (clock < co.expiresAt)

def finalize (r : Reservation) (note : Option String) (clock : Time) (db : Db) : Bool × Db :=
  match db.manifest with
  | none => (false, db.orphan r.version)
  | some row =>
    if fencedHead row r clock then (true, (db.setHead row r.version).publish r.version note)
    else (false, db.orphan r.version)

def verifySelectedBundle (db : Db) (v : ℤ) (bundle : Except StoreError Unit) : Except StoreError Unit := do
  -- `_verify_selected_bundle`, which reads the ready rows only; `bundle` is what reading the graph
  -- bundle answers, when the version names one.
  let row ← selectManifest auth db
  let _ ← currentHead auth row
  match db.readyRow v with
  | none => .error (unknownVersion auth.toDrawingId v (db.readyRows.map (·.version)))
  | some r =>
    let _ ← drawingVersionKey v
    if namesBundle (auth.visibleNote r.note) then bundle else pure ()

def undo (holder : Option String) (fence : Option ℤ) (now : Time) (bundle : Except StoreError Unit)
    (db : Db) : Except StoreError (ℤ × Db) := do
  let row ← selectManifest auth db
  let head ← currentHead auth row
  match db.readyRow head with
  | none => .error (.keyError (manifestKey auth.toDrawingId))
  | some v =>
    authorizeCheckoutRow row holder fence now "undo"
    match v.parentVersion with
    | none => .error (.valueError "nothing to undo: head is the root version")
    | some parent =>
      verifySelectedBundle auth db parent bundle
      .ok (parent, db.setHead row parent)

def Db.maxReady (db : Db) : Option ℤ := (db.readyRows.map (·.version)).max?

def Db.parentOf (db : Db) (v : ℤ) : Option ℤ := (db.readyRow v).bind (·.parentVersion)

def redoTarget (db : Db) (head latest : ℤ) : Option ℤ :=
  findChild db.parentOf head (db.readyRows.length + 2) (some latest) []

def redo (holder : Option String) (fence : Option ℤ) (now : Time) (bundle : Except StoreError Unit)
    (db : Db) : Except StoreError (ℤ × Db) := do
  let row ← selectManifest auth db
  let head ← currentHead auth row
  authorizeCheckoutRow row holder fence now "redo"
  match db.maxReady with
  | none => .error (.typeError "int() argument must not be None")
  | some latest =>
    if head = latest then
      .error (.valueError "nothing to redo: head is already the latest version")
    else
      match redoTarget db head latest with
      | none => .error (.valueError (s!"nothing to redo: no child of head {head} " ++
          s!"leads to latest {latest}"))
      | some target =>
        verifySelectedBundle auth db target bundle
        .ok (target, db.setHead row target)

def grantable (row : ManifestRow) (holder : String) (expectedFence : Option ℤ)
    (strictOwner : Bool) (now : Time) : Bool :=
  match row.checkout with
  | none => true
  | some co =>
    if now < co.expiresAt then
      if strictOwner then decide (expectedFence = some row.checkoutFence)
      else decide (co.holder = holder)
    else true

def acquireCheckoutFence (holder : String) (ttl : ℤ) (expectedFence : Option ℤ)
    (strictOwner : Bool) (now started : Time) (db : Db) : Except StoreError (Option ℤ × Db) :=
  -- `started` is the transaction's `NOW()`, fixed when it began.
  if holder = anonymousHolder then
    .error (.checkoutParamError (pyRepr anonymousHolder ++ " is reserved and cannot hold a checkout"))
  else if ttl ≤ 0 then .error (.checkoutParamError "checkout ttl must be positive")
  else do
    let row ← selectManifest auth db
    if grantable row holder expectedFence strictOwner now then
      .ok (some (row.checkoutFence + 1), { db with manifest := some { row with
        checkout := some ⟨holder, started, started + ttl⟩
        checkoutFence := row.checkoutFence + 1 } })
    else .ok (none, db)

def releasable (row : ManifestRow) (co : CheckoutColumns) (holder : Option String)
    (expectedFence : Option ℤ) (now : Time) : Bool :=
  if now < co.expiresAt then
    match expectedFence, holder with
    | some f, _ => decide (row.checkoutFence = f)
    | none, some h => decide (co.holder = h)
    | none, none => true
  else true

def releaseCheckout (holder : Option String) (expectedFence : Option ℤ) (now : Time) (db : Db) :
    Except StoreError (Bool × Db) := do
  let row ← selectManifest auth db
  match row.checkout with
  | none => .ok (false, db)
  | some co =>
    if releasable row co holder expectedFence now then
      .ok (true, { db with manifest := some { row with checkout := none } })
    else .ok (false, db)

def publishedApply (db : Db) (r : Reservation) : Option VersionRow :=
  (db.readyRows.mergeSort (fun a b => a.version ≤ b.version)).find? (fun e =>
    e.workitemId = r.workitemId ∧ auth.visibleNote e.note = r.note)

end LeafWeb.Store.Postgres
