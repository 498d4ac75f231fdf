import LeafWeb.Lib.ParentChain
import LeafWeb.Lib.Transition
import LeafWeb.Store.Legacy.Backend

/-! The six writers of the legacy manifest, each inside the drawing's exclusive checkout guard. -/

namespace LeafWeb.Store.Legacy

open Lib.Procedure Lib.ParentChain

def initialManifest (host : Host) (data : Bytes) (now : Time) : Manifest where
  head := 1
  latest := 1
  versions := [{ v := 1, parent := none, created := now, bytes := data.length,
                 sha256 := host.sha256 data, workitemId := none, tool := none,
                 note := some "initial ingest" }]
  checkout := none
  checkoutFence := none

def ingestDrawing (host : Host) (data : Bytes) (precondition : Option Bool) (now : Time) : StoreM ℤ :=
  legacyCheckoutGuard host true precondition do
    refuse (fun s => s.drawing.manifest.isSome) (fun _ =>
      .valueError ("drawing already exists: " ++ host.tid ++ "/" ++ host.did ++
        " (use put_drawing to add versions)"))
    refuse (fun s => (s.drawing.objects (.version 1)).isSome) (fun _ =>
      .valueError ("refuse to overwrite immutable version key " ++ (ObjectKey.version 1).path host.toDrawingId))
    put (.version 1) data
    saveManifest (initialManifest host data now)
    pure 1

inductive ParentArg
  | none
  | int (i : ℤ)
  | other (coerced : Option ℤ)

def ParentArg.toInt : ParentArg → Except StoreError (Option ℤ)
  | .none => .ok Option.none
  | .int i => .ok (some i)
  | .other (some i) => .ok (some i)
  | .other Option.none => .error (.valueError "invalid literal for int()")

structure Meta where
  workitemId : Option String := none
  tool : Option String := none
  note : Option String := none
  sourceRef : Option String := none
  planSha256 : Option String := none

structure PreparedBundle where
  raw : Bytes
  applyId : String

structure PutArgs where
  data : Bytes
  parentVersion : ParentArg
  info : Meta := {}
  holder : Option String := none
  fence : Option ℤ := none
  requireParentIsHead : Bool := false
  /-- Prepared before the guarded section is entered, so its outcome is an input here. -/
  graphBundle : Option (Except StoreError PreparedBundle) := none
  mutationPlan : Option Bytes := none
  prepareMutationPlan : Option (ℤ → Except StoreError Bool) := none

structure PutRequest where
  info : Meta
  bundle : Option PreparedBundle
  requireParentIsHead : Bool

variable (host : Host)

def planHeader : Bytes := "LEAF_MUTATION_PLAN|".toUTF8.toList

def checkMutationPlan (a : PutArgs) : Except StoreError PutRequest :=
  match a.mutationPlan with
  | none => .ok ⟨a.info, none, a.requireParentIsHead⟩
  | some plan =>
    if planHeader.isPrefixOf plan = false ∨ plan.length > 1048576 then
      .error (.valueError "invalid mutation plan bytes")
    else
      match a.parentVersion with
      | .int p =>
        if p < 1 then .error (.valueError "mutation plan requires a positive parent version")
        else if a.info.planSha256.getD (host.sha256 plan) ≠ host.sha256 plan then
          .error (.valueError "mutation plan digest mismatch")
        else .ok ⟨{ a.info with planSha256 := some (host.sha256 plan) }, none, true⟩
      | _ => .error (.valueError "mutation plan requires a positive parent version")

def checkGraphBundle (a : PutArgs) (r : PutRequest) : Except StoreError PutRequest :=
  match a.graphBundle with
  | none => .ok r
  | some prepared =>
    if a.holder = none ∨ a.fence = none ∨ a.fence.getD 0 < 1 then
      .error (.checkoutDenied "graph commits require a holder and checkout fence")
    else if a.data = [] ∨ a.data.length > 256 * 1024 * 1024 then
      .error (.valueError "invalid graph DWG payload")
    else do
      let bundle ← prepared
      .ok { info := { r.info with
              note := some (bundleNote ++ host.sha256 bundle.raw)
              workitemId := some ("solar:" ++ bundle.applyId) }
            bundle := some bundle
            requireParentIsHead := true }

def preparePut (a : PutArgs) : Except StoreError PutRequest := checkMutationPlan host a >>= checkGraphBundle host a

def replayedApply (a : PutArgs) (r : PutRequest) (m : Manifest) (now : Time) : Except StoreError (Option ℤ) :=
  -- The checks of a graph commit under the guard: `some v` when its apply id is already published
  -- as version `v`.
  match r.bundle, m.checkout with
  | none, _ => .ok none
  | some _, none => .error (.checkoutDenied "an active checkout is required for a graph commit")
  | some _, some c =>
    if isActive (some c) now = false then
      .error (.checkoutDenied "an active checkout is required for a graph commit")
    else if a.holder = none ∨ a.fence = none ∨ c.fence ≠ a.fence then
      .error (.checkoutDenied "graph commits require a holder and checkout fence")
    else
      match m.versions.find? (fun e => e.workitemId = r.info.workitemId) with
      | none => .ok none
      | some e =>
        if e.note ≠ r.info.note then
          .error (.valueError "apply id was reused with different content")
        else .ok (some e.v)

def checkDeclaredParent (a : PutArgs) (r : PutRequest) (m : Manifest) : Except StoreError Unit :=
  if r.requireParentIsHead then do
    let declared ← a.parentVersion.toInt
    if declared ≠ some m.head then
      .error (.valueError ("stale parent " ++ declared.elim "None" toString ++ s!": head is now {m.head}"))
    else .ok ()
  else .ok ()

def maxAbandonedVersionSlots : ℕ := 1000

/-- The first slot from `v` on with no blob, or with exactly the payload (`true`: adopted). -/
def firstSlot (d : Drawing) (data : Bytes) (plain : Bool) : ℕ → ℤ → Except StoreError (ℤ × Bool)
  | 0, _ => .error (.valueError "too many abandoned version reservations")
  | n + 1, v =>
    match d.objects (.version v) with
    | none => .ok (v, false)
    | some existing =>
      if plain = true ∧ host.crossProcessCheckoutSafe = false then
        .error (.valueError ("refuse to overwrite immutable version key " ++
          (ObjectKey.version v).path host.toDrawingId))
      else if existing.length = data.length ∧ host.sha256 existing = host.sha256 data then
        .ok (v, true)
      else do
        let _ ← drawingVersionKey (v + 1)
        firstSlot d data plain n (v + 1)

def reserveSlot (d : Drawing) (data : Bytes) (plain : Bool) (latest : ℤ) : Except StoreError (ℤ × Bool) := do
  let _ ← drawingVersionKey (latest + 1)
  firstSlot host d data plain maxAbandonedVersionSlots (latest + 1)

def publishGraphBundle (b : PreparedBundle) : StoreM Unit := do
  let key ← read (fun _ => graphBundleKey (host.sha256 b.raw))
  putOrVerifyBlob host key b.raw (host.sha256 b.raw)

def publishObjects (data : Bytes) (bundle : Option PreparedBundle) (m : Manifest)
    (v : ℤ) (adopted : Bool) (later : Time) : StoreM Unit :=
  match bundle with
  | none => if adopted then pure () else put (.version v) data
  | some b => do
    putOrVerifyBlob host (.version v) data (host.sha256 data)
    publishGraphBundle host b
    refuse (fun _ => isActive m.checkout later = false) (fun _ =>
      .checkoutDenied "checkout expired during graph publication")

def newEntry (a : PutArgs) (r : PutRequest) (v : ℤ) (parent : Option ℤ) (later : Time) : VersionEntry where
  v := v
  parent := parent
  created := later
  bytes := a.data.length
  sha256 := host.sha256 a.data
  workitemId := r.info.workitemId
  tool := r.info.tool
  note := r.info.note
  sourceRef := r.info.sourceRef

def Manifest.append (m : Manifest) (e : VersionEntry) : Manifest :=
  { m with versions := m.versions ++ [e], head := e.v, latest := e.v }

def wantedPlan (a : PutArgs) (v : ℤ) : Except StoreError (Option Bytes) :=
  match a.mutationPlan, a.prepareMutationPlan with
  | some plan, some prepare => do
    let published ← prepare v
    .ok (if published then some plan else none)
  | plan, _ => .ok plan

def suppress (p : StoreM Unit) : StoreM Unit := tryCatch p (fun _ => pure ())

def storePlan (v : ℤ) (plan : Bytes) : StoreM Bool :=
  tryCatch (do putIfAbsentOrVerify host (.plan v) plan; pure true)
    (fun _ => do suppress (delete (.plan v)); pure false)

def withdrawPlan (v : ℤ) (stored existed : Bool) : StoreM Unit :=
  if stored && !existed then suppress (delete (.plan v)) else pure ()

def commitVersion (m : Manifest) (e : VersionEntry) (fields : Option (String × ℤ))
    (plan : Option Bytes) : StoreM Unit :=
  match plan with
  | none => saveManifest (m.append e)
  | some bytes => do
    let existed ← read (fun s => .ok (s.drawing.objects (.plan e.v)).isSome)
    let stored ← storePlan host e.v bytes
    let e' := if stored then { e with planFields := fields } else e
    tryCatch (saveManifest (m.append e')) (fun err => do
      withdrawPlan e.v stored existed
      throw err)

def putDrawing (a : PutArgs) (now later : Time) : StoreM ℤ := do
  let r ← read (fun _ => preparePut host a)
  legacyCheckoutGuard host false none do
    let m ← read (fun s => loadManifest host s.drawing)
    read (fun _ => authorizeCheckoutView m.checkout a.holder a.fence now "publish a version")
    match ← read (fun _ => replayedApply a r m now) with
    | some v => pure v
    | none => do
      read (fun _ => checkDeclaredParent a r m)
      let (v, adopted) ← read (fun s =>
        reserveSlot host s.drawing a.data r.bundle.isNone m.latest)
      publishObjects host a.data r.bundle m v adopted later
      let parent ← read (fun _ => a.parentVersion.toInt)
      let plan ← read (fun _ => wantedPlan a v)
      commitVersion host m (newEntry host a r v parent later)
        (r.info.planSha256.bind fun digest => parent.map fun p => (digest, p)) plan
      pure v

def undo (holder : Option String) (fence : Option ℤ) (now : Time) : StoreM ℤ :=
  legacyCheckoutGuard host false none do
    let m ← read (fun s => loadManifest host s.drawing)
    read (fun _ => authorizeCheckoutView m.checkout holder fence now "undo")
    let parent ← read (fun _ =>
      match m.entry? m.head with
      | none => .error (.valueError (s!"head version {m.head} missing from manifest " ++
          host.tid ++ "/" ++ host.did))
      | some e =>
        match e.parent with
        | none => .error (.valueError "nothing to undo: head is the root version")
        | some p => .ok p)
    read (fun s => verifySelectedBundle host s.drawing parent)
    saveManifest { m with head := parent }
    pure parent

def parentOf (versions : List VersionEntry) (v : ℤ) : Option ℤ :=
  -- The `parent_of` dict of `redo`: a later entry for a version replaces an earlier one.
  (versions.reverse.find? (fun e => e.v = v)).bind (·.parent)

def redoTarget (m : Manifest) : Option ℤ :=
  findChild (parentOf m.versions) m.head (m.versions.length + 2) (some m.latest) []

def redo (holder : Option String) (fence : Option ℤ) (now : Time) : StoreM ℤ :=
  legacyCheckoutGuard host false none do
    let m ← read (fun s => loadManifest host s.drawing)
    read (fun _ => authorizeCheckoutView m.checkout holder fence now "redo")
    refuse (fun _ => m.head = m.latest) (fun _ =>
      .valueError "nothing to redo: head is already the latest version")
    let target ← read (fun _ =>
      match redoTarget m with
      | none => .error (.valueError (s!"nothing to redo: no child of head {m.head} " ++
          s!"leads to latest {m.latest}"))
      | some v => .ok v)
    read (fun s => verifySelectedBundle host s.drawing target)
    saveManifest { m with head := target }
    pure target

def nextFence (m : Manifest) : ℤ :=
  match m.checkoutFence.or (m.checkout.bind (·.fence)) with
  | some prior => prior + 1
  | none => 1

def addTtl (now : Time) (ttl : Option ℤ) : Except StoreError Time :=
  -- `now + timedelta(seconds=ttl)`; `none` for a duration `timedelta` itself refuses.
  match ttl with
  | none => .error .overflowError
  | some d =>
    if now + d < -62135596800000000 ∨ 253402300799999999 < now + d then .error .overflowError
    else .ok (now + d)

def grantable (m : Manifest) (holder : String) (expectedFence : Option ℤ) (strictOwner : Bool)
    (now : Time) : Bool :=
  match m.checkout with
  | none => true
  | some c =>
    if isActive (some c) now then
      if strictOwner then
        match expectedFence with
        | none => false
        | some f => decide (c.fence.getD 0 = f)
      else decide (c.holder = holder)
    else true

def acquireCheckoutFence (holder : String) (ttl : Option ℤ) (expectedFence : Option ℤ)
    (strictOwner : Bool) (now : Time) : StoreM (Option ℤ) := do
  refuse (fun _ => holder = anonymousHolder) (fun _ => .checkoutParamError
    (pyRepr anonymousHolder ++ " is reserved and cannot hold a checkout"))
  legacyCheckoutGuard host false none do
    let m ← read (fun s => loadManifest host s.drawing)
    if grantable m holder expectedFence strictOwner now then do
      let expires ← read (fun _ => addTtl now ttl)
      saveManifest { m with
        checkoutFence := some (nextFence m)
        checkout := some ⟨holder, now, expires, some (nextFence m)⟩ }
      pure (some (nextFence m))
    else pure none

def releasable (c : Checkout) (holder : Option String) (expectedFence : Option ℤ) (now : Time) : Bool :=
  if isActive (some c) now then
    match expectedFence, holder with
    | some f, _ => decide (c.fence.getD 0 = f)
    | none, some h => decide (c.holder = h)
    | none, none => true
  else true

def releaseCheckout (holder : Option String) (expectedFence : Option ℤ) (now : Time) : StoreM Bool :=
  legacyCheckoutGuard host false none do
    let m ← read (fun s => loadManifest host s.drawing)
    match m.checkout with
    | none => pure false
    | some c =>
      if releasable c holder expectedFence now then do
        saveManifest { m with checkout := none }
        pure true
      else pure false

inductive Op
  | ingest (data : Bytes) (precondition : Option Bool)
  | put (a : PutArgs)
  | undo (holder : Option String) (fence : Option ℤ)
  | redo (holder : Option String) (fence : Option ℤ)
  | acquire (holder : String) (ttl : Option ℤ) (expectedFence : Option ℤ) (strictOwner : Bool)
  | release (holder : Option String) (expectedFence : Option ℤ)

inductive Answer
  | version (v : ℤ)
  | generation (g : Option ℤ)
  | cleared (b : Bool)
  deriving DecidableEq

structure Call where
  op : Op
  (now later : Time)
  faults : List Bool := []

def perform (host : Host) (c : Call) : StoreM Answer :=
  match c.op with
  | .ingest data precondition => .version <$> ingestDrawing host data precondition c.later
  | .put a => .version <$> putDrawing host a c.now c.later
  | .undo holder fence => .version <$> Legacy.undo host holder fence c.now
  | .redo holder fence => .version <$> Legacy.redo host holder fence c.now
  | .acquire holder ttl expectedFence strictOwner =>
    .generation <$> acquireCheckoutFence host holder ttl expectedFence strictOwner c.now
  | .release holder expectedFence => .cleared <$> releaseCheckout host holder expectedFence c.now

/-- The guard makes a call one atomic step on the drawing. -/
def step (host : Host) (d : Drawing) (c : Call) : Except StoreError Answer × Drawing :=
  let r := exec (perform host c) ⟨d, c.faults⟩
  (r.1, r.2.drawing)

end LeafWeb.Store.Legacy
